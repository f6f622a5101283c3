import Backwire.Proofs.Wire.Locality

/-!
# What readers agree on

The tag and the size of a value can be told without looking into it. Every other reader of the same
string finds the same payload, so if it succeeds it has used exactly this size; and where no size
can be told, no value of any kind is read and nothing is valid. Only three things can go wrong
behind a size that was told: a number that is too large for its tag, a text that is none, and a
table that is not whole.
-/

namespace Backwire.Wire

open Tail

/-- The failures of a reader of values that are found in the payload. -/
def Tag.Refuses : Tag → WireError → Prop
  | int16, e | int32, e | uint16, e | uint32, e => e = .overflow
  | string, e => e = .invalidString
  | list, e | bigList, e | message, e | bigMessage, e => e = .invalidTable
  | _, _ => False

/-- The reader of values refuses no tag. -/
theorem Maker.exists_value (tag : Tag) : ∃ f, Maker.value tag = .ok f := by
  cases tag <;> exact ⟨_, rfl⟩

theorem Maker.exists_validation (levels : Nat) (tag : Tag) :
    ∃ f, Maker.validation levels tag = .ok f := by
  obtain ⟨f, hf⟩ := exists_value tag
  exact ⟨_, by rw [validation, Maker.bind, hf]⟩

variable {tag : Tag} {t : Tail} {p : tag.Payload} {v : Value} {n : Nat} {e : WireError}

/-- A value that is read has the tag of the string. -/
theorem Value.tag_of_read (htag : readTag t = .ok tag) (h : Value.read t = .ok (v, n)) :
    v.tag = tag := by
  rcases Value.read_eq_ok_iff.1 h with ⟨rfl | ⟨rest, rfl⟩, rfl, -⟩ | hends
  · cases htag
    rfl
  · rw [readTag_cons] at htag
    cases htag
    rfl
  · rcases readTag_eq_ok_iff.1 htag with ⟨rfl, rfl⟩ | ⟨rest, rfl⟩
    · obtain ⟨_, rest, ht, -, he⟩ := hends
      obtain ⟨p, rfl⟩ := he.last
      simp [ofBytes_concat] at ht
    · exact Value.tag_of_endsIn hends

theorem Maker.closedText_error {p : Tail} (h : closedText p = .error e) : e = .invalidString := by
  unfold closedText at h
  split at h
  · split at h <;> cases h
    rfl
  · cases h
    rfl

theorem Maker.listOf_error {big : Bool} {s : Sections} (h : listOf big s = .error e) :
    e = .invalidTable := by
  rcases bind_eq_error_iff.1 h with h | ⟨_, -, h⟩
  · exact (ite_eq_error_iff.1 h).1.symm
  · cases h

theorem Maker.messageOf_error {big : Bool} {s : Sections} (h : messageOf big s = .error e) :
    e = .invalidTable := by
  rcases bind_eq_error_iff.1 h with h | ⟨_, -, h⟩
  · exact (ite_eq_error_iff.1 h).1.symm
  · cases h

/-- One byte is a small number. -/
theorem ofTail_lt_of_readFixed {p : Tail} (h : readFixed 1 t = .ok (p, n)) :
    Word.ofTail p < 0x100 := by
  obtain ⟨_, -, h⟩ := bind_eq_ok_iff.1 h
  cases h
  have hlen : (t.tail.take 1).length ≤ 1 := List.length_take_le 1 _
  have hlt := Word.ofTail_lt (t.tail.take 1)
  interval_cases (t.tail.take 1).length
  · exact Nat.lt_trans hlt (by decide)
  · exact hlt

/-- Where the reader of values finds a payload and fails, the tag refuses it. -/
theorem Maker.refuses_of_value {f : tag.Payload → Except WireError Value}
    (hf : Maker.value tag = .ok f) (hp : readPayload tag t = .ok (p, n)) (he : f p = .error e) :
    tag.Refuses e := by
  -- most tags make a value of any payload, which contradicts `he`
  cases tag <;> cases hf <;>
    simp only [ok_bind, bind_eq_error_iff, ite_eq_error_iff, reduceCtorEq, and_false, exists_false,
      or_false] at he
  case byte => exact absurd (ofTail_lt_of_readFixed hp) he.2
  case string => exact closedText_error he
  case list | bigList => exact listOf_error he
  case message | bigMessage => exact messageOf_error he
  case int16 | int32 | uint16 | uint32 => exact he.1.symm

/-! ### Sizes -/

variable {k : Reading}

theorem readExtent_eq_ok_iff : readExtent t = .ok (tag, n) ↔
    readTag t = .ok tag ∧ ∃ p, readPayload tag t = .ok (p, n) := by
  rw [readExtent_eq, Maker.read_eq_ok_iff]
  constructor
  · rintro ⟨tag', f, p, htag, hf, hp, hv⟩
    cases hf
    cases hv
    exact ⟨htag, p, hp⟩
  · rintro ⟨htag, p, hp⟩
    exact ⟨tag, _, p, htag, rfl, hp, rfl⟩

theorem readExtent_eq_error_iff : readExtent t = .error e ↔
    readTag t = .error e ∨ ∃ tag, readTag t = .ok tag ∧ readPayload tag t = .error e := by
  rw [readExtent_eq, Maker.read_eq_error_iff]
  simp [Maker.extent]

/-- **Whatever is read takes the size that was told.** -/
theorem Reading.readExtent_of_run {v : k.Result} (h : k.run t = .ok (v, n)) :
    ∃ tag, readExtent t = .ok (tag, n) := by
  rw [run_eq] at h
  obtain ⟨tag, f, p, htag, -, hp, -⟩ := Maker.read_eq_ok_iff.1 h
  exact ⟨tag, readExtent_eq_ok_iff.2 ⟨htag, p, hp⟩⟩

/-- Where no size can be told, a reader that refuses no tag fails in the same way. -/
theorem Maker.read_of_readExtent_error {α : Type} {make : Maker α}
    (hmake : ∀ tag, ∃ f, make tag = .ok f) (h : readExtent t = .error e) :
    make.read t = .error e := by
  rcases readExtent_eq_error_iff.1 h with htag | ⟨tag, htag, hp⟩
  · exact read_eq_error_iff.2 (.inl htag)
  · obtain ⟨f, hf⟩ := hmake tag
    exact read_eq_error_iff.2 (.inr ⟨tag, htag, .inr ⟨f, hf, .inl hp⟩⟩)

/-- Behind a size that was told stands a value with the tag, or the tag refuses it. -/
theorem Value.read_of_readExtent (h : readExtent t = .ok (tag, n)) :
    (∃ v, Value.read t = .ok (v, n) ∧ v.tag = tag) ∨
      ∃ e, Value.read t = .error e ∧ tag.Refuses e := by
  obtain ⟨htag, p, hp⟩ := readExtent_eq_ok_iff.1 h
  obtain ⟨f, hf⟩ := Maker.exists_value tag
  rw [Value.read_eq]
  cases hv : f p with
  | ok v =>
    have hread : Maker.value.read t = .ok (v, n) :=
      Maker.read_eq_ok_iff.2 ⟨tag, f, p, htag, hf, hp, hv⟩
    exact .inl ⟨v, hread, Value.tag_of_read htag (by rwa [Value.read_eq])⟩
  | error e =>
    exact .inr ⟨e, Maker.read_eq_error_iff.2
      (.inr ⟨tag, htag, .inr ⟨f, hf, .inr ⟨p, n, hp, hv⟩⟩⟩), Maker.refuses_of_value hf hp hv⟩

theorem readExtent_of_validate (h : validate t = .ok n) : ∃ tag, readExtent t = .ok (tag, n) := by
  have hrun : Reading.validation.run t = .ok ((), n) := by
    simp only [Reading.run, h]
    rfl
  exact Reading.readExtent_of_run hrun

theorem validate_of_readExtent_error (h : readExtent t = .error e) : validate t = .error e := by
  rw [validate, validateWithin_succ_eq,
    Maker.read_of_readExtent_error (Maker.exists_validation maxDepth) h]
  rfl

/-- **All readers agree on the tag and the size of a value.**

* Where no size can be told, no value is read and nothing is valid, for the same reason.
* Where one is told, a value of that tag and size is read, or the tag refuses its payload.
* Whatever else is read, validation included, has the size that is told.
* A table is read where its view is, and is the table of the view. -/
theorem readers_agree (b : List UInt8) :
    (∀ e, readExtent (ofBytes b) = .error e →
      Value.read (ofBytes b) = .error e ∧ validate (ofBytes b) = .error e) ∧
    (∀ tag n, readExtent (ofBytes b) = .ok (tag, n) →
      (∃ v, Value.read (ofBytes b) = .ok (v, n) ∧ v.tag = tag) ∨
        ∃ e, Value.read (ofBytes b) = .error e ∧ tag.Refuses e) ∧
    (∀ (k : Reading) (v : k.Result) n, k.run (ofBytes b) = .ok (v, n) →
      ∃ tag, readExtent (ofBytes b) = .ok (tag, n)) ∧
    (∀ n, validate (ofBytes b) = .ok n → ∃ tag, readExtent (ofBytes b) = .ok (tag, n)) ∧
    readListTable (ofBytes b) =
      (do let (l, n) ← readList (ofBytes b); return (l.table, n)) ∧
    readMessageTable (ofBytes b) =
      (do let (m, n) ← readMessage (ofBytes b); return (m.table, n)) := by
  refine ⟨fun e h => ⟨?_, validate_of_readExtent_error h⟩, fun tag n => Value.read_of_readExtent,
    fun k v n => Reading.readExtent_of_run, fun n => readExtent_of_validate, ?_, ?_⟩
  · rw [Value.read_eq]
    exact Maker.read_of_readExtent_error Maker.exists_value h
  · rw [readListTable_eq, Maker.read_map, readList_eq]
  · rw [readMessageTable_eq, Maker.read_map, readMessage_eq]

/-- A size that reaches too far, and a list whose table is not whole. -/
theorem readers_agree_instances :
    readExtent (ofBytes [7, 3, 9, 50]) = .error .invalidSize ∧
      validate (ofBytes [7, 3, 9, 50]) = .error .invalidSize ∧
      readExtent (ofBytes [9, 0, 0, 0, 0, 3, 70]) = .ok (.list, 6) ∧
      ∃ e, Value.read (ofBytes [9, 0, 0, 0, 0, 3, 70]) = .error e ∧ Tag.list.Refuses e := by
  have hsize : readExtent (ofBytes [7, 3, 9, 50]) = .error .invalidSize := by rfl
  have htable : readExtent (ofBytes [9, 0, 0, 0, 0, 3, 70]) = .ok (.list, 6) := by rfl
  refine ⟨hsize, ((readers_agree _).1 _ hsize).2, htable, ?_⟩
  refine ((readers_agree _).2.1 _ _ htable).resolve_left ?_
  rintro ⟨v, hv, -⟩
  cases hv

end Backwire.Wire
