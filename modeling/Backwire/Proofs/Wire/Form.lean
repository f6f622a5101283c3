import Backwire.Wire.Decode
import Backwire.Wire.Encode
import Backwire.Proofs.Wire.Numeral

/-!
# Written forms

The layouts of the format, written forward, and what the readers of parts make of them: a size, a
payload of fixed width, a region closed by its size, a text, and the data and table of a list or
message closed by theirs. A size may be any numeral of at most five groups, not only the shortest.

    region    data         | numeral of size            | tag
    text      data | 0     | numeral of size            | tag
    sealed    data | table | numerals of data and table | tag
-/

namespace Backwire.Wire

open Tail

/-- A size is written as a numeral of at most five groups. -/
def SizeForm (g : List UInt8) (n : Nat) : Prop := Numeral g n ∧ g.length ≤ 5

/-- A number under a tag: its numeral has at most ten groups. -/
def NumberForm (tag : Tag) (v : Nat) (e : List UInt8) : Prop :=
  ∃ g, e = g ++ [tag.toByte] ∧ Numeral g v ∧ g.length ≤ 10

/-- Data closed by its size. -/
def RegionForm (tag : Tag) (data e : List UInt8) : Prop :=
  ∃ g, e = data ++ g ++ [tag.toByte] ∧ SizeForm g data.length ∧ e.length ≤ maxSize

/-- The bytes of a text in UTF-8. -/
def utf8 (s : String) : List UInt8 := s.toUTF8.data.toList

/-- A text closed by a zero byte and its size. -/
def TextForm (s : String) (e : List UInt8) : Prop :=
  ∃ g, e = utf8 s ++ [0] ++ g ++ [Tag.string.toByte] ∧ SizeForm g (utf8 s).length ∧
    e.length ≤ maxSize

/-- Data and a table closed by their sizes. -/
def Sealed (tag : Tag) (data table e : List UInt8) : Prop :=
  ∃ g h, e = data ++ table ++ g ++ h ++ [tag.toByte] ∧ SizeForm g data.length ∧
    SizeForm h table.length ∧ e.length ≤ maxSize

/-! ### Sizes -/

theorem readSize_eq_ok_iff {t : Tail} {s n : Nat} :
    readSize t = .ok (s, n) ↔ t.EndsIn n (SizeForm · s) ∧ s ≤ maxSize := by
  have h32 : t.EndsIn n (SizeForm · s) ↔ t.EndsIn n (Numeral · s) ∧ n ≤ 5 :=
    endsIn_and_length (P := (· ≤ 5))
  rw [h32, readSize, bind_eq_ok_iff]
  constructor
  · rintro ⟨⟨s', n'⟩, hread, h⟩
    dsimp only at h
    split at h
    · cases h
      obtain ⟨he, hn, -⟩ := read32_eq_ok_iff.1 hread
      exact ⟨⟨he, hn⟩, ‹_›⟩
    · cases h
  · rintro ⟨⟨he, hn⟩, hs⟩
    refine ⟨(s, n), read32_eq_ok_iff.2 ⟨he, hn, ?_⟩, by simp [hs, pure, Except.pure]⟩
    unfold maxSize at hs
    omega

theorem extent_eq_ok_iff {available n : Nat} {parts : List Nat} :
    extent available parts = .ok n ↔ total parts = n ∧ n ≤ available ∧ n ≤ maxSize := by
  rw [extent, ite_eq_ok_iff]
  constructor
  · rintro ⟨rfl, h⟩
    exact ⟨rfl, h⟩
  · rintro ⟨rfl, h⟩
    exact ⟨rfl, h⟩

/-! ### Payloads of fixed width -/

theorem readFixed_eq_ok_iff {width n : Nat} {b : UInt8} {t p : Tail} :
    readFixed width (b :: t) = .ok (p, n) ↔
      p.length = width ∧ EndsIn (b :: t) n (· = toBytes p ++ [b]) := by
  rw [readFixed, fixedExtent, List.length_cons]
  split
  · rename_i hw
    change Except.ok (t.take width, width + 1) = .ok (p, n) ↔ _
    simp only [Except.ok.injEq, Prod.mk.injEq]
    constructor
    · rintro ⟨rfl, rfl⟩
      refine ⟨by simp; omega, _, t.drop width, ?_, by simp; omega, rfl⟩
      rw [ofBytes_concat, ofBytes_toBytes, List.cons_append, List.take_append_drop]
    · rintro ⟨rfl, _, rest, ht, rfl, rfl⟩
      rw [ofBytes_concat, ofBytes_toBytes, List.cons_append, List.cons.injEq] at ht
      rw [ht.2]
      simp
  · rename_i hw
    refine ⟨nofun, fun ⟨hp, h⟩ => ?_⟩
    have hle := h.le_length
    obtain ⟨e, rest, ht, rfl, rfl⟩ := h
    simp at hle
    omega

/-! ### Regions and texts -/

/-- A body closed by its size, in which its last `extra` bytes are not counted. -/
def ClosedForm (b : UInt8) (extra : Nat) (body e : List UInt8) : Prop :=
  ∃ g s, e = body ++ g ++ [b] ∧ body.length = s + extra ∧ SizeForm g s ∧ e.length ≤ maxSize

/-- A closed body is found by reading its size and going back that far. -/
theorem endsIn_closed {b : UInt8} {t : Tail} {n extra : Nat} {body : List UInt8} :
    EndsIn (b :: t) n (ClosedForm b extra body) ↔
      ∃ s m, readSize t = .ok (s, m) ∧ extent (t.length + 1) [1, m, s, extra] = .ok n ∧
        (t.drop m).take (s + extra) = ofBytes body := by
  simp only [extent_eq_ok_iff, readSize_eq_ok_iff, total]
  constructor
  · rintro ⟨e, rest, ht, rfl, g, s, rfl, hbody, hg, hmax⟩
    rw [ofBytes_concat, ofBytes_append, List.cons_append, List.append_assoc, List.cons.injEq] at ht
    obtain ⟨-, rfl⟩ := ht
    simp only [List.length_append, List.length_singleton] at hmax
    refine ⟨s, g.length, ⟨⟨g, _, rfl, rfl, hg⟩, by omega⟩, ⟨?_, ?_, ?_⟩, ?_⟩
    · simp; omega
    · simp; omega
    · simp; omega
    · rw [List.drop_left' (length_ofBytes g), List.take_left' (by simp [hbody])]
  · rintro ⟨s, _, ⟨⟨g, rest, rfl, rfl, hg⟩, -⟩, ⟨hn, hle, hmax⟩, hbody⟩
    rw [List.drop_left' (length_ofBytes g)] at hbody
    have hlen := congrArg List.length hbody
    simp only [List.length_take, List.length_append, length_ofBytes] at hlen hle
    refine ⟨body ++ g ++ [b], rest.drop (s + extra), ?_, ?_, g, s, rfl, by omega, hg, ?_⟩
    · rw [ofBytes_concat, ofBytes_append, ← hbody, List.cons_append, List.append_assoc,
        List.take_append_drop]
    · simp; omega
    · simp; omega

theorem readRegion_eq_ok_iff {tag : Tag} {t d : Tail} {n : Nat} :
    readRegion (tag.toByte :: t) = .ok (d, n) ↔
      EndsIn (tag.toByte :: t) n (RegionForm tag (toBytes d)) := by
  have hform : RegionForm tag (toBytes d) = ClosedForm tag.toByte 0 (toBytes d) := by
    funext e
    simp [RegionForm, ClosedForm]
  simp only [hform, endsIn_closed, readRegion, bind_eq_ok_iff, List.tail_cons, Prod.exists,
    pure_eq_ok_iff, Prod.mk.injEq, ofBytes_toBytes, extent_eq_ok_iff, total, Nat.add_zero,
    List.length_cons]
  constructor
  · rintro ⟨s, m, hsize, _, hextent, hd, rfl⟩
    exact ⟨s, m, hsize, hextent, hd⟩
  · rintro ⟨s, m, hsize, hextent, hd⟩
    exact ⟨s, m, hsize, n, hextent, hd, rfl⟩

theorem textOfBytes?_eq_some_iff {bytes : List UInt8} {s : String} :
    textOfBytes? bytes = some s ↔ utf8 s = bytes := by
  unfold textOfBytes? String.fromUTF8? utf8
  constructor
  · intro h
    split at h
    · cases h
      simp [String.fromUTF8]
    · cases h
  · rintro rfl
    have hs : (⟨s.toByteArray.data⟩ : ByteArray).IsValidUTF8 := s.isValidUTF8
    simp [String.fromUTF8, hs]

theorem readString_eq_ok_iff {t : Tail} {s : String} {n : Nat} :
    readString (Tag.string.toByte :: t) = .ok (s, n) ↔
      EndsIn (Tag.string.toByte :: t) n (TextForm s) := by
  have htag : readTag (Tag.string.toByte :: t) = .ok .string := by simp [readTag]
  have hform : TextForm s = ClosedForm Tag.string.toByte 1 (utf8 s ++ [0]) := by
    funext e
    simp [TextForm, ClosedForm]
  simp only [hform, endsIn_closed, readString, bind_eq_ok_iff, htag, Except.ok.injEq,
    exists_eq_left', List.tail_cons, Prod.exists, List.length_cons, ofBytes_concat]
  constructor
  · rintro ⟨size, m, hsize, total', hextent, h⟩
    refine ⟨size, m, hsize, ?_⟩
    split at h
    · rename_i rest hrest
      split at h
      · rename_i s' htext
        cases h
        refine ⟨hextent, ?_⟩
        rw [hrest, List.take_succ_cons, textOfBytes?_eq_some_iff.1 htext]
        exact congrArg _ (ofBytes_toBytes _).symm
      · cases h
    · cases h
  · rintro ⟨size, m, hsize, hextent, h⟩
    refine ⟨size, m, hsize, n, hextent, ?_⟩
    cases hrest : t.drop m with
    | nil => simp [hrest] at h
    | cons b rest =>
      rw [hrest, List.take_succ_cons, List.cons.injEq] at h
      obtain ⟨rfl, h⟩ := h
      have htext : textOfBytes? (rest.take size).reverse = some s :=
        textOfBytes?_eq_some_iff.2 (by rw [h]; exact (toBytes_ofBytes _).symm)
      simp [htext, pure, Except.pure]

/-! ### Data and table -/

/-- The parts of a sealed string in the order in which they are read. -/
theorem ofBytes_sealed (data table g h : List UInt8) (b : UInt8) :
    ofBytes (data ++ table ++ g ++ h ++ [b]) =
      b :: (ofBytes h ++ (ofBytes g ++ (ofBytes table ++ ofBytes data))) := by
  simp [ofBytes_append]

theorem readSections_eq_ok_iff {tag : Tag} {t data : Tail} {table : List UInt8} {size n : Nat} :
    readSections (tag.toByte :: t) = .ok (⟨data, table, size⟩, n) ↔
      size = data.length ∧ EndsIn (tag.toByte :: t) n (Sealed tag (toBytes data) table) := by
  simp only [readSections, bind_eq_ok_iff, List.tail_cons, Prod.exists, pure_eq_ok_iff,
    Prod.mk.injEq, Sections.mk.injEq, extent_eq_ok_iff, readSize_eq_ok_iff, total,
    List.length_cons]
  constructor
  · rintro ⟨ts, _, ⟨⟨h, rest, rfl, rfl, hh⟩, -⟩, ds, _, ⟨⟨g, rest', hrest, rfl, hg⟩, -⟩, _,
      ⟨hn, hle, hmax⟩, ⟨hdata, htable, hsize⟩, rfl⟩
    rw [List.drop_left' (length_ofBytes h)] at hrest hdata htable
    subst hrest
    rw [List.drop_left' (length_ofBytes g)] at hdata htable
    simp only [List.length_append, length_ofBytes] at hn hle
    have hd : data.length = ds := by rw [← hdata]; simp; omega
    have ht : table.length = ts := by rw [← htable]; simp; omega
    have htable' : ofBytes table = rest'.take ts := by rw [← htable]; exact ofBytes_toBytes _
    refine ⟨by omega, toBytes data ++ table ++ g ++ h ++ [tag.toByte], (rest'.drop ts).drop ds,
      ?_, ?_, g, h, rfl, ?_, ht ▸ hh, ?_⟩
    · rw [ofBytes_sealed, ofBytes_toBytes, htable', ← hdata]
      simp only [List.cons_append, List.append_assoc, List.take_append_drop]
    · simp; omega
    · rw [length_toBytes, hd]; exact hg
    · simp; omega
  · rintro ⟨rfl, e, rest, ht, rfl, g, h, rfl, hg, hh, hmax⟩
    rw [ofBytes_sealed, ofBytes_toBytes] at ht
    simp only [List.cons_append, List.append_assoc, List.cons.injEq, true_and] at ht
    subst ht
    simp only [List.length_append, length_toBytes, List.length_singleton] at hmax hg
    refine ⟨table.length, h.length, ⟨⟨h, _, rfl, rfl, hh⟩, by omega⟩, data.length, g.length, ?_, _,
      ⟨rfl, ?_, ?_⟩, ⟨?_, ?_, rfl⟩, ?_⟩
    · rw [List.drop_left' (length_ofBytes h)]
      exact ⟨⟨g, _, rfl, rfl, hg⟩, by omega⟩
    · simp; omega
    · omega
    · rw [List.drop_left' (length_ofBytes h), List.drop_left' (length_ofBytes g),
        List.drop_left' (length_ofBytes table), List.take_left' rfl]
    · rw [List.drop_left' (length_ofBytes h), List.drop_left' (length_ofBytes g),
        List.take_left' (length_ofBytes table)]
      exact toBytes_ofBytes table
    · simp; omega

end Backwire.Wire
