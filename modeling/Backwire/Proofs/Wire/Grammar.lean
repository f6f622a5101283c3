import Backwire.Proofs.Wire.Parts

/-!
# Validation accepts the grammar

The grammar says forward what a value looks like inside and out. It is given by three predicates,
each with the depth below the root at which the bytes stand:

* `Encoding depth e`: the bytes `e` write a value;
* `Slot depth s`: the bytes `s` are the place of an element, which is empty or one encoding;
* `Field depth f`: the bytes `f` are the data up to the end of a field, which is empty, ends in a
  zero byte, or ends in an encoding.

Slots and fields stand at depth `maxDepth` or above. Validation walks the other way, from the last
byte towards the first, and accepts exactly the strings that end in an encoding.
-/

namespace Backwire.Wire

open Tail

mutual

/-- **The bytes write a value**, with everything inside it. -/
inductive Encoding : Nat → List UInt8 → Prop
  /-- A value of a builtin type. -/
  | datum {depth : Nat} {e : List UInt8} (d : Datum) (form : d.Form e) : Encoding depth e
  /-- A struct, whose body may be anything. -/
  | struct {depth : Nat} {e : List UInt8} (body : List UInt8) (form : RegionForm .struct body e) :
      Encoding depth e
  /-- A list: the offsets ascend within the data and cut it into slots. -/
  | list {depth : Nat} {e : List UInt8} (big : Bool) (stops : List Nat) (data : List UInt8)
      (fits : ListTable.Fits big stops)
      (form : Sealed (.ofList big) data (ListTable.encode big stops) e)
      (ascending : stops.Pairwise (· ≤ ·)) (inside : ∀ s ∈ stops, s ≤ data.length)
      (slots : ∀ p ∈ ListTable.extents 0 stops, Slot (depth + 1) ((data.take p.2).drop p.1)) :
      Encoding depth e
  /-- A message: the tags ascend strictly, and each offset ends a field within the data. -/
  | message {depth : Nat} {e : List UInt8} (big : Bool) (entries : List Entry) (data : List UInt8)
      (fits : MessageTable.Fits big entries)
      (form : Sealed (.ofMessage big) data (MessageTable.encode big entries) e)
      (ascending : (entries.map Entry.tag).Pairwise (· < ·))
      (inside : ∀ f ∈ entries, f.stop ≤ data.length)
      (fields : ∀ f ∈ entries, Field (depth + 1) (data.take f.stop)) : Encoding depth e

/-- **The bytes are the place of an element.** -/
inductive Slot : Nat → List UInt8 → Prop
  | empty {depth : Nat} (within : depth ≤ maxDepth) : Slot depth []
  | whole {depth : Nat} {s : List UInt8} (within : depth ≤ maxDepth) (encoding : Encoding depth s) :
      Slot depth s

/-- **The bytes end where a field ends.** -/
inductive Field : Nat → List UInt8 → Prop
  | empty {depth : Nat} (within : depth ≤ maxDepth) : Field depth []
  | absent {depth : Nat} (within : depth ≤ maxDepth) (front : List UInt8) :
      Field depth (front ++ [0])
  | suffix {depth : Nat} {e : List UInt8} (within : depth ≤ maxDepth) (front : List UInt8)
      (encoding : Encoding depth e) : Field depth (front ++ e)

end

/-! ### One level -/

/-- The elements of a list are accepted where their offsets cut its data into slots. -/
theorem elementsChecked_iff {check : Tail → Except WireError Nat} {P : List UInt8 → Prop}
    (hcheck : ∀ s : List UInt8, check (ofBytes s) = .ok s.length ↔ P s) {data : List UInt8}
    {stops : List Nat} :
    (∀ p ∈ ListTable.extents 0 stops,
      ∃ slot, (ofBytes data).slot p.1 p.2 = some slot ∧ check slot = .ok slot.length) ↔
    stops.Pairwise (· ≤ ·) ∧ (∀ s ∈ stops, s ≤ data.length) ∧
      ∀ p ∈ ListTable.extents 0 stops, P ((data.take p.2).drop p.1) := by
  have hpart (p : Nat × Nat) :
      (∃ slot, (ofBytes data).slot p.1 p.2 = some slot ∧ check slot = .ok slot.length) ↔
        p.1 ≤ p.2 ∧ p.2 ≤ data.length ∧ P ((data.take p.2).drop p.1) := by
    simp only [slot_eq_some_iff, toBytes_ofBytes, length_ofBytes, ← hcheck]
    constructor
    · rintro ⟨_, ⟨hle, hin, rfl⟩, h⟩
      rw [length_ofBytes] at h
      exact ⟨hle, hin, h⟩
    · rintro ⟨hle, hin, h⟩
      exact ⟨_, ⟨hle, hin, rfl⟩, by rwa [length_ofBytes]⟩
  have hasc : (∀ p ∈ ListTable.extents 0 stops, p.1 ≤ p.2) ↔ stops.Pairwise (· ≤ ·) := by
    rw [ListTable.extents_le_iff, List.pairwise_cons]
    exact and_iff_right fun _ _ => Nat.zero_le _
  have hin : (∀ p ∈ ListTable.extents 0 stops, p.2 ≤ data.length) ↔
      ∀ s ∈ stops, s ≤ data.length := by
    rw [← List.forall_mem_map (f := Prod.snd) (P := (· ≤ data.length)), ListTable.map_snd_extents]
  simp only [hpart, imp_and, forall_and, hasc, hin]

/-- The fields of a message are accepted where their tags ascend and their offsets lie in its
data. -/
theorem fieldsChecked_iff {check : Tail → Except WireError Nat} {P : List UInt8 → Prop}
    (hcheck : ∀ f : List UInt8, (∃ n, check (ofBytes f) = .ok n) ↔ P f) {data : List UInt8}
    {entries : List Entry} :
    (∀ f ∈ entries, ∃ part n, (ofBytes data).upTo f.stop = some part ∧ check part = .ok n) ↔
    (∀ f ∈ entries, f.stop ≤ data.length) ∧ ∀ f ∈ entries, P (data.take f.stop) := by
  have hpart (f : Entry) :
      (∃ part n, (ofBytes data).upTo f.stop = some part ∧ check part = .ok n) ↔
        f.stop ≤ data.length ∧ P (data.take f.stop) := by
    simp only [upTo_eq_some_iff, toBytes_ofBytes, length_ofBytes, ← hcheck]
    constructor
    · rintro ⟨_, n, ⟨hin, rfl⟩, h⟩
      exact ⟨hin, n, h⟩
    · rintro ⟨hin, n, h⟩
      exact ⟨_, n, ⟨hin, rfl⟩, h⟩
  simp only [hpart, imp_and, forall_and]

/-- **What a form must have inside it to be an encoding.** -/
theorem encoding_iff {depth : Nat} {e : List UInt8} {check : Tail → Except WireError Nat}
    (hslot : ∀ s : List UInt8, check (ofBytes s) = .ok s.length ↔ Slot (depth + 1) s)
    (hfield : ∀ f : List UInt8, (∃ n, check (ofBytes f) = .ok n) ↔ Field (depth + 1) f) :
    Encoding depth e ↔ ∃ v : Value, v.Form e ∧ v.Checked check := by
  constructor
  · intro h
    cases h with
    | datum d form => exact ⟨.datum d, form, trivial⟩
    | struct body form =>
      exact ⟨.struct (ofBytes body), by rwa [Value.Form, toBytes_ofBytes], trivial⟩
    | list big stops data fits form ascending inside slots =>
      refine ⟨.list (.make big data stops), ListView.form_make form, ?_⟩
      rw [Value.Checked, ListView.stops_make fits]
      exact (elementsChecked_iff hslot).2 ⟨ascending, inside, slots⟩
    | message big entries data fits form ascending inside fields =>
      refine ⟨.message (.make big data entries), MessageView.form_make form, ?_⟩
      rw [Value.Checked, MessageTable.tags, MessageView.entries_make fits]
      exact ⟨ascending, (fieldsChecked_iff hfield).2 ⟨inside, fields⟩⟩
  · rintro ⟨v, form, checked⟩
    cases v with
    | undefined => exact form.elim
    | datum d => exact .datum d form
    | struct body => exact .struct (toBytes body) form
    | list l =>
      obtain ⟨-, hwhole, hform⟩ := form
      rw [← ListTable.encode_stops hwhole] at hform
      rw [Value.Checked, ← ofBytes_toBytes l.data] at checked
      obtain ⟨ascending, inside, slots⟩ := (elementsChecked_iff hslot).1 checked
      exact .list _ _ _ (ListTable.fits_stops _) hform ascending inside slots
    | message m =>
      obtain ⟨-, hwhole, hform⟩ := form
      rw [← MessageTable.encode_entries hwhole] at hform
      rw [Value.Checked, ← ofBytes_toBytes m.data] at checked
      obtain ⟨inside, fields⟩ := (fieldsChecked_iff hfield).1 checked.2
      exact .message _ _ _ (MessageTable.fits_entries _) hform checked.1 inside fields

/-! ### All levels -/

/-- A form is not empty. -/
theorem Encoding.ne_nil {depth : Nat} {e : List UInt8} (h : Encoding depth e) : e ≠ [] := by
  cases h with
  | datum d form =>
    obtain ⟨p, rfl⟩ := form.last
    simp
  | struct _ form =>
    obtain ⟨g, rfl, -⟩ := form
    simp
  | list _ _ _ _ form | message _ _ _ _ form =>
    obtain ⟨g, h, rfl, -⟩ := form
    simp

/-- The string ends in a value, which may be absent, at the given depth. -/
def Accepted (depth : Nat) (t : Tail) (n : Nat) : Prop :=
  depth ≤ maxDepth ∧ (t.Blank ∧ n = 0 ∨ t.EndsIn n (Encoding depth))

theorem blank_ofBytes_iff {b : List UInt8} : (ofBytes b).Blank ↔ b = [] ∨ ∃ p, b = p ++ [0] := by
  refine or_congr List.reverse_eq_nil_iff ⟨?_, ?_⟩
  · rintro ⟨rest, h⟩
    refine ⟨toBytes rest, ?_⟩
    rw [← toBytes_ofBytes b, h, toBytes, List.reverse_cons]
    rfl
  · rintro ⟨p, rfl⟩
    exact ⟨ofBytes p, ofBytes_concat p 0⟩

/-- A slot is accepted as a whole. -/
theorem accepted_length_iff {depth : Nat} {s : List UInt8} :
    Accepted depth (ofBytes s) s.length ↔ Slot depth s := by
  rw [Accepted, endsIn_ofBytes]
  constructor
  · rintro ⟨hdepth, ⟨-, hs⟩ | ⟨p, e, rfl, hlen, he⟩⟩
    · rw [List.eq_nil_of_length_eq_zero hs]
      exact .empty hdepth
    · obtain rfl : p = [] := by
        rw [List.length_append] at hlen
        exact List.eq_nil_of_length_eq_zero (by omega)
      exact .whole hdepth he
  · intro h
    cases h with
    | empty within => exact ⟨within, .inl ⟨.inl rfl, rfl⟩⟩
    | whole within he => exact ⟨within, .inr ⟨[], s, rfl, rfl, he⟩⟩

/-- A field is accepted at its end. -/
theorem exists_accepted_iff {depth : Nat} {f : List UInt8} :
    (∃ n, Accepted depth (ofBytes f) n) ↔ Field depth f := by
  simp only [Accepted, endsIn_ofBytes, blank_ofBytes_iff]
  constructor
  · rintro ⟨n, hdepth, ⟨rfl | ⟨p, rfl⟩, -⟩ | ⟨p, e, rfl, -, he⟩⟩
    · exact .empty hdepth
    · exact .absent hdepth p
    · exact .suffix hdepth p he
  · intro h
    cases h with
    | empty within => exact ⟨0, within, .inl ⟨.inl rfl, rfl⟩⟩
    | absent within p => exact ⟨0, within, .inl ⟨.inr ⟨p, rfl⟩, rfl⟩⟩
    | suffix within p he => exact ⟨_, within, .inr ⟨p, _, rfl, rfl, he⟩⟩

/-- **Validation within a number of levels** accepts what the grammar says at the depth that leaves
these levels. -/
theorem validateWithin_eq_ok_iff {levels depth : Nat} (h : levels + depth = maxDepth + 1) {t : Tail}
    {n : Nat} : validateWithin levels t = .ok n ↔ Accepted depth t n := by
  induction levels generalizing depth t n with
  | zero =>
    refine ⟨nofun, fun hacc => ?_⟩
    have := hacc.1
    omega
  | succ levels ih =>
    have hnext : levels + (depth + 1) = maxDepth + 1 := by omega
    have henc (e : List UInt8) := encoding_iff (e := e)
      (fun s => (ih hnext).trans accepted_length_iff)
      (fun f => (exists_congr fun n => ih hnext).trans exists_accepted_iff)
    rw [validateWithin_succ_iff, Accepted, and_iff_right (by omega)]
    constructor
    · rintro ⟨v, hread, hchecked⟩
      rcases Value.read_eq_ok_iff.1 hread with ⟨hblank, -, hn⟩ | hends
      · exact .inl ⟨hblank, hn⟩
      · exact .inr (hends.imp fun e _ he => (henc e).2 ⟨v, he, hchecked⟩)
    · rintro (⟨hblank, hn⟩ | ⟨e, rest, ht, hn, he⟩)
      · exact ⟨.undefined, Value.read_eq_ok_iff.2 (.inl ⟨hblank, rfl, hn⟩), trivial⟩
      · obtain ⟨v, hform, hchecked⟩ := (henc e).1 he
        exact ⟨v, Value.read_eq_ok_iff.2 (.inr ⟨e, rest, ht, hn, hform⟩), hchecked⟩

/-- **Validation accepts exactly the grammar.** It returns a positive size where the last bytes of
that number are an encoding, and 0 where there is no value. -/
theorem validate_eq_ok_iff (b : List UInt8) :
    (∀ n, validate (ofBytes b) = .ok (n + 1) ↔
      ∃ p e, b = p ++ e ∧ e.length = n + 1 ∧ Encoding 0 e) ∧
    (validate (ofBytes b) = .ok 0 ↔ b = [] ∨ b.getLast? = some 0) := by
  have haccepted (n : Nat) : validate (ofBytes b) = .ok n ↔ Accepted 0 (ofBytes b) n :=
    validateWithin_eq_ok_iff (Nat.add_zero _)
  simp only [haccepted, Accepted, Nat.zero_le, true_and, endsIn_ofBytes]
  refine ⟨fun n => or_iff_right fun h => absurd h.2 (Nat.succ_ne_zero n), ?_⟩
  have hlast : b.getLast? = some 0 ↔ ∃ p, b = p ++ [0] := List.getLast?_eq_some_iff
  rw [hlast, ← blank_ofBytes_iff, and_true]
  refine or_iff_left ?_
  rintro ⟨p, e, -, hlen, he⟩
  exact he.ne_nil (List.eq_nil_of_length_eq_zero hlen)

end Backwire.Wire
