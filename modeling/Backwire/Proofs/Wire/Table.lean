import Backwire.Wire.Table
import Backwire.Proofs.Wire.Ending

/-!
# Tables and what they hold

A table is kept as its bytes. Here its bytes and its entries determine each other: a table of whole
entries is the encoding of its entries, and an encoding of numbers that fit their places holds these
numbers. All four layouts are read piece by piece, so this is shown once, for any decoder that takes
pieces of a fixed width (`Chunked`).

Where the tags of a message table ascend, halving finds exactly the entries it holds
(`MessageTable.stop?_eq_some_iff`, `MessageTable.stop?_eq_none_iff`).
-/

namespace Backwire.Wire

/-! ### Decoders that take pieces of a fixed width -/

/-- `dec` takes the bytes in pieces of `width`, and makes of each piece what `item` says; what is
left at the end and is no whole piece is passed over. -/
structure Chunked {α : Type} (width : Nat) (dec : List UInt8 → List α) (item : List UInt8 → α) :
    Prop where
  pos : 0 < width
  piece (word rest : List UInt8) : word.length = width → dec (word ++ rest) = item word :: dec rest
  short (bytes : List UInt8) : bytes.length < width → dec bytes = []

namespace Chunked

variable {α β : Type} {width : Nat} {dec : List UInt8 → List α} {item : List UInt8 → α}
  {enc : α → List UInt8}

/-- The first piece and the rest. -/
theorem eq_cons (h : Chunked width dec item) {bytes : List UInt8} (hle : width ≤ bytes.length) :
    dec bytes = item (bytes.take width) :: dec (bytes.drop width) := by
  rw [← h.piece _ _ (by simp [hle]), List.take_append_drop]

/-- What is true of every piece is true of all that is decoded. -/
theorem forall_mem (h : Chunked width dec item) {P : α → Prop}
    (hP : ∀ word, word.length = width → P (item word)) (bytes : List UInt8) :
    ∀ a ∈ dec bytes, P a := by
  induction hn : bytes.length using Nat.strongRecOn generalizing bytes with
  | ind n ih =>
    rcases Nat.lt_or_ge bytes.length width with hlt | hle
    · rw [h.short bytes hlt]
      exact nofun
    · have hpos := h.pos
      rw [h.eq_cons hle]
      exact List.forall_mem_cons.2 ⟨hP _ (by simp [hle]), ih _ (by simp; omega) _ rfl⟩

/-- Bytes that are whole pieces are the encoding of what is decoded. -/
theorem flatMap_dec (h : Chunked width dec item)
    (henc : ∀ word, word.length = width → enc (item word) = word) {bytes : List UInt8}
    (hwhole : bytes.length % width = 0) : (dec bytes).flatMap enc = bytes := by
  induction hn : bytes.length using Nat.strongRecOn generalizing bytes with
  | ind n ih =>
    have hpos := h.pos
    rcases Nat.lt_or_ge bytes.length width with hlt | hle
    · rw [Nat.mod_eq_of_lt hlt] at hwhole
      rw [h.short bytes hlt, List.eq_nil_of_length_eq_zero hwhole]
      rfl
    · have hrest : (bytes.drop width).length % width = 0 := by
        rw [List.length_drop, ← Nat.mod_eq_sub_mod hle]
        exact hwhole
      rw [h.eq_cons hle, List.flatMap_cons, henc _ (by simp [hle]), ih _ (by simp; omega) hrest rfl,
        List.take_append_drop]

/-- The encoding of items is decoded piece by piece. -/
theorem dec_flatMap_eq_map (h : Chunked width dec item) {items : List β} {enc : β → List UInt8}
    (henc : ∀ b ∈ items, (enc b).length = width) :
    dec (items.flatMap enc) = items.map fun b => item (enc b) := by
  induction items with
  | nil => exact h.short [] h.pos
  | cons b rest ih =>
    rw [List.flatMap_cons, h.piece _ _ (henc b List.mem_cons_self), List.map_cons,
      ih fun b hb => henc b (List.mem_cons_of_mem _ hb)]

/-- The encoding of items that read back is decoded to them. -/
theorem dec_flatMap (h : Chunked width dec item) {items : List α}
    (henc : ∀ a ∈ items, (enc a).length = width ∧ item (enc a) = a) :
    dec (items.flatMap enc) = items := by
  rw [h.dec_flatMap_eq_map fun a ha => (henc a ha).1]
  exact (List.map_congr_left fun a ha => (henc a ha).2).trans (List.map_id _)

/-- The encoding of items is whole pieces. -/
theorem length_flatMap_mod {items : List α} (henc : ∀ a ∈ items, (enc a).length = width) :
    (items.flatMap enc).length % width = 0 := by
  induction items with
  | nil => exact Nat.zero_mod width
  | cons a rest ih =>
    rw [List.flatMap_cons, List.length_append, henc a List.mem_cons_self, Nat.add_mod_left]
    exact ih fun b hb => henc b (List.mem_cons_of_mem _ hb)

theorem length_dec (h : Chunked width dec item) (bytes : List UInt8) :
    (dec bytes).length = bytes.length / width := by
  induction hn : bytes.length using Nat.strongRecOn generalizing bytes with
  | ind n ih =>
    subst hn
    rcases Nat.lt_or_ge bytes.length width with hlt | hle
    · rw [h.short bytes hlt, Nat.div_eq_of_lt hlt, List.length_nil]
    · have hpos := h.pos
      rw [h.eq_cons hle, List.length_cons, ih _ (by simp; omega) _ rfl, List.length_drop,
        ← Nat.div_eq_sub_div hpos hle]

/-- An item is made of the piece at its place. -/
theorem getElem?_dec (h : Chunked width dec item) {bytes : List UInt8} {i : Nat} {a : α}
    (ha : (dec bytes)[i]? = some a) :
    ∃ word, word.length = width ∧ a = item word ∧
      ∀ k < width, bytes[i * width + k]? = word[k]? := by
  induction i generalizing bytes with
  | zero =>
    rcases Nat.lt_or_ge bytes.length width with hlt | hle
    · simp [h.short bytes hlt] at ha
    · rw [h.eq_cons hle, List.getElem?_cons_zero, Option.some.injEq] at ha
      refine ⟨bytes.take width, by simp [hle], ha.symm, fun k hk => ?_⟩
      rw [Nat.zero_mul, Nat.zero_add, List.getElem?_take_of_lt hk]
  | succ i ih =>
    rcases Nat.lt_or_ge bytes.length width with hlt | hle
    · simp [h.short bytes hlt] at ha
    · rw [h.eq_cons hle, List.getElem?_cons_succ] at ha
      obtain ⟨word, hlen, hitem, hword⟩ := ih ha
      refine ⟨word, hlen, hitem, fun k hk => ?_⟩
      rw [← hword k hk, List.getElem?_drop, Nat.succ_mul]
      congr 1
      omega

end Chunked

/-! ### Lists -/

namespace ListTable

theorem chunked_decodeSmall : Chunked 2 decodeSmall Word.ofBytes where
  pos := by decide
  piece
    | [a, b], rest, _ => by
      simp only [List.cons_append, List.nil_append, decodeSmall, Word.ofBytes, Word.ofTail,
        List.reverse_cons, List.reverse_nil]
      congr 1
      omega
  short
    | [], _ | [_], _ => rfl

theorem chunked_decodeBig : Chunked 4 decodeBig Word.ofBytes where
  pos := by decide
  piece
    | [a, b, c, d], rest, _ => by
      simp only [List.cons_append, List.nil_append, decodeBig, Word.ofBytes, Word.ofTail,
        List.reverse_cons, List.reverse_nil]
      congr 1
      omega
  short
    | [], _ | [_], _ | [_, _], _ | [_, _, _], _ => rfl

/-- The decoder of a layout. -/
def decode (big : Bool) : List UInt8 → List Nat := if big then decodeBig else decodeSmall

theorem stops_eq_decode (t : ListTable) : t.stops = decode t.big t.bytes := by
  unfold stops decode
  split <;> rfl

theorem chunked_decode (big : Bool) : Chunked (entryWidth big) (decode big) Word.ofBytes := by
  cases big
  · exact chunked_decodeSmall
  · exact chunked_decodeBig

/-- The table has no incomplete entry. -/
def Whole (t : ListTable) : Prop := t.bytes.length % entryWidth t.big = 0

/-- Every offset fits its place in a table. -/
def Fits (big : Bool) (stops : List Nat) : Prop := ∀ s ∈ stops, s < Word.count (entryWidth big)

theorem ofBytes_eq_ok_iff {bytes : List UInt8} {size : Nat} {big : Bool} {t : ListTable} :
    ofBytes bytes size big = .ok t ↔ t = ⟨bytes, size, big⟩ ∧ t.Whole := by
  rw [ofBytes, ite_eq_ok_iff]
  constructor
  · rintro ⟨rfl, h⟩
    exact ⟨rfl, h⟩
  · rintro ⟨rfl, h⟩
    exact ⟨rfl, h⟩

/-- A table of whole entries is the encoding of its offsets. -/
theorem encode_stops {t : ListTable} (h : t.Whole) : encode t.big t.stops = t.bytes := by
  rw [stops_eq_decode]
  exact (chunked_decode t.big).flatMap_dec (fun word hword => hword ▸ Word.toBytes_ofBytes word) h

theorem fits_stops (t : ListTable) : Fits t.big t.stops := by
  rw [stops_eq_decode]
  exact (chunked_decode t.big).forall_mem (fun word hword => hword ▸ Word.ofBytes_lt word) t.bytes

/-- The encoding of offsets holds of each what its place can hold. -/
theorem stops_encode_eq_map (big : Bool) (stops : List Nat) (size : Nat) :
    (⟨encode big stops, size, big⟩ : ListTable).stops =
      stops.map (· % Word.count (entryWidth big)) := by
  rw [stops_eq_decode, encode,
    (chunked_decode big).dec_flatMap_eq_map fun s _ => Word.length_toBytes _ s]
  exact List.map_congr_left fun s _ => Word.ofBytes_toBytes_eq_mod _ s

/-- The encoding of offsets that fit holds them. -/
theorem stops_encode {big : Bool} {stops : List Nat} (h : Fits big stops) (size : Nat) :
    (⟨encode big stops, size, big⟩ : ListTable).stops = stops := by
  rw [stops_eq_decode]
  exact (chunked_decode big).dec_flatMap fun s hs =>
    ⟨Word.length_toBytes _ s, Word.ofBytes_toBytes (h s hs)⟩

theorem whole_encode (size : Nat) (big : Bool) (stops : List Nat) :
    (⟨encode big stops, size, big⟩ : ListTable).Whole :=
  Chunked.length_flatMap_mod fun s _ => Word.length_toBytes (entryWidth big) s

theorem length_stops (t : ListTable) : t.stops.length = t.length := by
  rw [stops_eq_decode, (chunked_decode t.big).length_dec, length]

/-- The layout that is chosen for ascending offsets of four bytes holds them. -/
theorem fits_needsBig {stops : List Nat} (hasc : stops.Pairwise (· ≤ ·))
    (h : ∀ s ∈ stops, s < 0x100000000) : Fits (needsBig stops) stops := by
  intro s hs
  cases hbig : needsBig stops with
  | true => exact h s hs
  | false =>
    -- the last offset fits two bytes, and it is the largest one
    obtain ⟨init, last, rfl⟩ : ∃ init last, stops = init ++ [last] :=
      ⟨_, _, (List.dropLast_concat_getLast (List.ne_nil_of_mem hs)).symm⟩
    simp only [needsBig, List.getLast?_append, List.getLast?_singleton, Option.some_or,
      Option.any_some, Bool.or_eq_false_iff, decide_eq_false_iff_not] at hbig
    change s < 65536
    rcases List.mem_append.1 hs with hs | hs
    · have := (List.pairwise_append.1 hasc).2.2 s hs last (by simp)
      omega
    · rw [List.mem_singleton] at hs
      omega

end ListTable

/-! ### Messages -/

namespace MessageTable

/-- The width of the tag in an entry. -/
def tagWidth (big : Bool) : Nat := if big then 2 else 1

/-- The width of the offset in an entry. -/
def stopWidth (big : Bool) : Nat := if big then 4 else 2

/-- The entry that a piece of a table writes. -/
def entryOf (big : Bool) (word : List UInt8) : Entry :=
  ⟨(Word.ofBytes (word.take (tagWidth big))).toUInt16, Word.ofBytes (word.drop (tagWidth big))⟩

/-- The entry fits its place in a table. -/
def EntryFits (big : Bool) (e : Entry) : Prop :=
  e.tag.toNat < Word.count (tagWidth big) ∧ e.stop < Word.count (stopWidth big)

theorem tagWidth_add_stopWidth (big : Bool) : tagWidth big + stopWidth big = entryWidth big := by
  cases big <;> rfl

theorem encodeEntry_eq (big : Bool) (e : Entry) : encodeEntry big e =
    Word.toBytes (tagWidth big) e.tag.toNat ++ Word.toBytes (stopWidth big) e.stop := by
  cases big <;> rfl

theorem length_encodeEntry (big : Bool) (e : Entry) :
    (encodeEntry big e).length = entryWidth big := by
  rw [encodeEntry_eq, List.length_append, Word.length_toBytes, Word.length_toBytes,
    tagWidth_add_stopWidth]

theorem toUInt16_toNat {width n : Nat} (hw : width ≤ 2) (hn : n < Word.count width) :
    n.toUInt16.toNat = n := by
  have hcount : Word.count width ≤ 0x10000 := by
    match width, hw with
    | 0, _ | 1, _ | 2, _ => decide
  rw [Nat.toUInt16, UInt16.toNat_ofNat', Nat.mod_eq_of_lt (by omega)]

theorem tagWidth_le (big : Bool) : tagWidth big ≤ 2 := by
  cases big <;> decide

/-- A piece of a table is the encoding of its entry, which fits. -/
theorem encodeEntry_entryOf {big : Bool} {word : List UInt8} (h : word.length = entryWidth big) :
    encodeEntry big (entryOf big word) = word ∧ EntryFits big (entryOf big word) := by
  have hwidth := tagWidth_add_stopWidth big
  have htag : (word.take (tagWidth big)).length = tagWidth big := by simp; omega
  have hstop : (word.drop (tagWidth big)).length = stopWidth big := by simp; omega
  have hlt := Word.ofBytes_lt (word.take (tagWidth big))
  have hlt' := Word.ofBytes_lt (word.drop (tagWidth big))
  have heq := Word.toBytes_ofBytes (word.take (tagWidth big))
  have heq' := Word.toBytes_ofBytes (word.drop (tagWidth big))
  rw [htag] at hlt heq
  rw [hstop] at hlt' heq'
  have hnat : (entryOf big word).tag.toNat = Word.ofBytes (word.take (tagWidth big)) :=
    toUInt16_toNat (tagWidth_le big) hlt
  refine ⟨?_, hnat ▸ hlt, hlt'⟩
  rw [encodeEntry_eq, hnat, entryOf, heq, heq', List.take_append_drop]

/-- An entry that fits reads back from its encoding. -/
theorem entryOf_encodeEntry {big : Bool} {e : Entry} (h : EntryFits big e) :
    (encodeEntry big e).length = entryWidth big ∧ entryOf big (encodeEntry big e) = e := by
  have htag := Word.length_toBytes (tagWidth big) e.tag.toNat
  refine ⟨length_encodeEntry big e, ?_⟩
  rw [encodeEntry_eq, entryOf, List.take_left' htag, List.drop_left' htag, Word.ofBytes_toBytes h.1,
    Word.ofBytes_toBytes h.2]
  simp

theorem chunked_decodeSmall : Chunked 3 decodeSmall (entryOf false) where
  pos := by decide
  piece
    | [t, a, b], rest, _ => by
      simp [decodeSmall, entryOf, tagWidth, Word.ofBytes, Word.ofTail, Nat.add_comm]
  short
    | [], _ | [_], _ | [_, _], _ => rfl

theorem chunked_decodeBig : Chunked 6 decodeBig (entryOf true) where
  pos := by decide
  piece
    | [s, t, a, b, c, d], rest, _ => by
      simp [decodeBig, entryOf, tagWidth, Word.ofBytes, Word.ofTail, Nat.add_comm]
  short
    | [], _ | [_], _ | [_, _], _ | [_, _, _], _ | [_, _, _, _], _ | [_, _, _, _, _], _ => rfl

/-- The decoder of a layout. -/
def decode (big : Bool) : List UInt8 → List Entry := if big then decodeBig else decodeSmall

theorem entries_eq_decode (t : MessageTable) : t.entries = decode t.big t.bytes := by
  unfold entries decode
  split <;> rfl

theorem chunked_decode (big : Bool) : Chunked (entryWidth big) (decode big) (entryOf big) := by
  cases big
  · exact chunked_decodeSmall
  · exact chunked_decodeBig

/-- The table has no incomplete entry. -/
def Whole (t : MessageTable) : Prop := t.bytes.length % entryWidth t.big = 0

/-- Every entry fits its place in a table. -/
def Fits (big : Bool) (entries : List Entry) : Prop := ∀ e ∈ entries, EntryFits big e

/-- The tags of a table, in its order. -/
def tags (t : MessageTable) : List UInt16 := t.entries.map Entry.tag

theorem ofBytes_eq_ok_iff {bytes : List UInt8} {size : Nat} {big : Bool} {t : MessageTable} :
    ofBytes bytes size big = .ok t ↔ t = ⟨bytes, size, big⟩ ∧ t.Whole := by
  rw [ofBytes, ite_eq_ok_iff]
  constructor
  · rintro ⟨rfl, h⟩
    exact ⟨rfl, h⟩
  · rintro ⟨rfl, h⟩
    exact ⟨rfl, h⟩

/-- A table of whole entries is the encoding of its entries. -/
theorem encode_entries {t : MessageTable} (h : t.Whole) : encode t.big t.entries = t.bytes := by
  rw [entries_eq_decode]
  exact (chunked_decode t.big).flatMap_dec (fun _ hword => (encodeEntry_entryOf hword).1) h

theorem fits_entries (t : MessageTable) : Fits t.big t.entries := by
  rw [entries_eq_decode]
  exact (chunked_decode t.big).forall_mem (fun _ hword => (encodeEntry_entryOf hword).2) t.bytes

/-- The encoding of entries that fit holds them. -/
theorem entries_encode {big : Bool} {entries : List Entry} (h : Fits big entries) (size : Nat) :
    (⟨encode big entries, size, big⟩ : MessageTable).entries = entries := by
  rw [entries_eq_decode]
  exact (chunked_decode big).dec_flatMap fun e he => entryOf_encodeEntry (h e he)

theorem whole_encode (size : Nat) (big : Bool) (entries : List Entry) :
    (⟨encode big entries, size, big⟩ : MessageTable).Whole :=
  Chunked.length_flatMap_mod fun e _ => length_encodeEntry big e

theorem length_entries (t : MessageTable) : t.entries.length = t.length := by
  rw [entries_eq_decode, (chunked_decode t.big).length_dec, length]

/-- The layout that is chosen for offsets of four bytes holds the entries. -/
theorem fits_needsBig {entries : List Entry} (h : ∀ e ∈ entries, e.stop < 0x100000000) :
    Fits (needsBig entries) entries := by
  intro e he
  cases hbig : needsBig entries with
  | true => exact ⟨e.tag.toNat_lt, h e he⟩
  | false =>
    have := List.any_eq_false.1 hbig e he
    simp only [Bool.or_eq_true, decide_eq_true_eq, not_or] at this
    change e.tag.toNat < 256 ∧ e.stop < 65536
    omega

/-! ### Searching -/

/-- **Halving finds a tag where it stands**: in ascending tags, between `lo` and `hi`. -/
theorem bisect_eq_some_iff {probe : Nat → Option UInt16} {tags : List UInt16}
    (hasc : tags.Pairwise (· < ·)) (hprobe : ∀ i < tags.length, probe i = tags[i]?) {tag : UInt16}
    {lo hi i : Nat} (hhi : hi ≤ tags.length) :
    bisect probe tag lo hi = some i ↔ lo ≤ i ∧ i < hi ∧ tags[i]? = some tag := by
  have hlt {a b : Nat} {x y : UInt16} (ha : tags[a]? = some x) (hb : tags[b]? = some y)
      (hab : a < b) : x < y := by
    obtain ⟨ha', rfl⟩ := List.getElem?_eq_some_iff.1 ha
    obtain ⟨hb', rfl⟩ := List.getElem?_eq_some_iff.1 hb
    exact List.pairwise_iff_getElem.1 hasc a b ha' hb' hab
  fun_induction bisect probe tag lo hi with
  | case1 lo hi hlohi mid hmid =>
    have hsome := hprobe mid (by omega)
    rw [hmid, List.getElem?_eq_getElem (by omega)] at hsome
    cases hsome
  | case2 lo hi hlohi mid t hmid htag ih =>
    rw [hprobe mid (by omega)] at hmid
    refine (ih hhi).trans ⟨fun ⟨hle, h⟩ => ⟨by omega, h⟩, fun ⟨hle, hi, h⟩ => ⟨?_, hi, h⟩⟩
    -- an index up to the middle has a smaller tag
    rcases Nat.lt_trichotomy i mid with hi | rfl | hi
    · have := hlt h hmid hi
      grind
    · grind
    · exact hi
  | case3 lo hi hlohi mid t hmid htag htag' ih =>
    rw [hprobe mid (by omega)] at hmid
    refine (ih (by omega)).trans
      ⟨fun ⟨hle, hi, h⟩ => ⟨hle, by omega, h⟩, fun ⟨hle, hi, h⟩ => ⟨hle, ?_, h⟩⟩
    -- an index from the middle on has a larger tag
    rcases Nat.lt_trichotomy i mid with hi | rfl | hi
    · exact hi
    · grind
    · have := hlt hmid h hi
      grind
  | case4 lo hi hlohi mid t hmid htag htag' =>
    rw [hprobe mid (by omega)] at hmid
    have heq : t = tag := UInt16.le_antisymm (UInt16.not_lt.1 htag') (UInt16.not_lt.1 htag)
    rw [Option.some.injEq]
    refine ⟨fun h => h ▸ ⟨by omega, by omega, heq ▸ hmid⟩, fun ⟨_, _, h⟩ => ?_⟩
    rcases Nat.lt_trichotomy i mid with hi | rfl | hi
    · exact absurd (heq ▸ hlt h hmid hi) (UInt16.lt_irrefl _)
    · rfl
    · exact absurd (heq ▸ hlt hmid h hi) (UInt16.lt_irrefl _)
  | case5 lo hi hlohi => exact ⟨nofun, fun ⟨_, _, _⟩ => by omega⟩

theorem eq_of_length_six {word : List UInt8} (h : word.length = 6) :
    ∃ s t a b c d, word = [s, t, a, b, c, d] := by
  obtain ⟨s, word, rfl⟩ := List.exists_cons_of_length_eq_add_one h
  obtain ⟨t, word, rfl⟩ := List.exists_cons_of_length_eq_add_one (Nat.succ.inj h)
  obtain ⟨a, word, rfl⟩ :=
    List.exists_cons_of_length_eq_add_one (Nat.succ.inj (Nat.succ.inj h))
  obtain ⟨b, c, d, rfl⟩ := List.length_eq_three.1 (Nat.succ.inj (Nat.succ.inj (Nat.succ.inj h)))
  exact ⟨s, t, a, b, c, d, rfl⟩

/-- The bytes of an entry are read where they stand. -/
theorem tagAt?_stopAt? {t : MessageTable} {i : Nat} {e : Entry} (h : t.entries[i]? = some e) :
    t.tagAt? i = some e.tag ∧ t.stopAt? i = some e.stop := by
  obtain ⟨bytes, size, big⟩ := t
  rw [entries_eq_decode] at h
  obtain ⟨word, hlen, rfl, hword⟩ := (chunked_decode big).getElem?_dec h
  cases big with
  | false =>
    obtain ⟨t, a, b, rfl⟩ := List.length_eq_three.1 hlen
    have h0 := hword 0 (by decide)
    have h1 := hword 1 (by decide)
    have h2 := hword 2 (by decide)
    simp only [entryWidth] at h0 h1 h2
    simp_all [tagAt?, stopAt?, entryOf, tagWidth, Word.ofBytes, Word.ofTail, Nat.add_comm]
  | true =>
    obtain ⟨s, t, a, b, c, d, rfl⟩ := eq_of_length_six hlen
    have h0 := hword 0 (by decide)
    have h1 := hword 1 (by decide)
    have h2 := hword 2 (by decide)
    have h3 := hword 3 (by decide)
    have h4 := hword 4 (by decide)
    have h5 := hword 5 (by decide)
    simp_all [tagAt?, stopAt?, entryOf, tagWidth, Word.ofBytes, Word.ofTail, Nat.add_comm]

theorem find?_eq_some_iff {t : MessageTable} (hasc : t.tags.Pairwise (· < ·)) {tag : UInt16}
    {i : Nat} : t.find? tag = some i ↔ t.tags[i]? = some tag := by
  have hlen : t.tags.length = t.length := by rw [tags, List.length_map, length_entries]
  have hprobe : ∀ i < t.tags.length, t.tagAt? i = t.tags[i]? := fun i hi => by
    rw [tags, List.length_map] at hi
    rw [(tagAt?_stopAt? (List.getElem?_eq_getElem hi)).1, tags, List.getElem?_map,
      List.getElem?_eq_getElem hi, Option.map_some]
  rw [find?, bisect_eq_some_iff hasc hprobe (Nat.le_of_eq hlen.symm)]
  refine ⟨fun h => h.2.2, fun h => ⟨i.zero_le, ?_, h⟩⟩
  rw [← hlen]
  exact (List.getElem?_eq_some_iff.1 h).1

/-- **A search finds the entry with the tag.** -/
theorem stop?_eq_some_iff {t : MessageTable} (hasc : t.tags.Pairwise (· < ·)) {tag : UInt16}
    {stop : Nat} : t.stop? tag = some stop ↔ ⟨tag, stop⟩ ∈ t.entries := by
  constructor
  · intro h
    unfold stop? at h
    split at h
    · cases h
    · rename_i i hi
      rw [find?_eq_some_iff hasc, tags, List.getElem?_map, Option.map_eq_some_iff] at hi
      obtain ⟨e, he, rfl⟩ := hi
      rw [(tagAt?_stopAt? he).2, Option.some.injEq] at h
      exact h ▸ List.mem_of_getElem? he
  · intro h
    obtain ⟨i, hi⟩ := List.mem_iff_getElem?.1 h
    have hfind : t.find? tag = some i := by
      rw [find?_eq_some_iff hasc, tags, List.getElem?_map, hi, Option.map_some]
    rw [stop?, hfind]
    exact (tagAt?_stopAt? hi).2

/-- **A search finds nothing where no entry has the tag.** -/
theorem stop?_eq_none_iff {t : MessageTable} (hasc : t.tags.Pairwise (· < ·)) {tag : UInt16} :
    t.stop? tag = none ↔ tag ∉ t.tags := by
  rw [Option.eq_none_iff_forall_ne_some, tags, List.mem_map]
  refine ⟨fun h ⟨e, he, htag⟩ => ?_, fun h stop hstop => ?_⟩
  · subst htag
    exact h e.stop ((stop?_eq_some_iff hasc).2 he)
  · exact h ⟨_, (stop?_eq_some_iff hasc).1 hstop, rfl⟩

theorem contains_iff {t : MessageTable} (hasc : t.tags.Pairwise (· < ·)) {tag : UInt16} :
    t.contains tag = true ↔ tag ∈ t.tags := by
  rw [contains, Option.isSome_iff_exists, List.mem_iff_getElem?]
  exact exists_congr fun i => find?_eq_some_iff hasc

end MessageTable

end Backwire.Wire
