import Backwire.Proofs.Wire.ReadBack
import Backwire.Proofs.Wire.Reading

/-!
# Data closed by a table

The data of a list or message may be written by other means than a builder, and then be closed:
`writeListTable` and `writeMessageTable` are told in how many bytes of data the buffer ends, and
where the parts of it end. Closed data is a form of a view (`sealed_of_writeTable`), so the view and
the table can be read off the end whatever the buffer held before.

The fields of a message always come back, and they are found by their tags
(`writeMessageTable_readBack`). The offsets of a list come back if they ascend. The layout of its
table is chosen by their number and the last one alone, and the small layout keeps the low two bytes
of an offset: where they do not ascend, an offset in front of the last one may lose its high bytes
(`writeListTable_readBack`).
-/

namespace Backwire.Wire

open Tail

variable {n k : Nat} {table : List UInt8} {tag : Tag} {buf buf' : Buffer}

/-! ### Any table -/

/-- A buffer of at least `n` bytes ends in `n` bytes. -/
theorem Buffer.length_take (hn : n ≤ buf.size) : (toBytes (buf.tail.take n)).length = n := by
  rw [length_toBytes, List.length_take_of_le hn]

/-- **Closing the last `n` bytes of a buffer** adds the table and what follows it. Together with
these bytes that is data closed by the table, and what the buffer held before stays in front. -/
theorem sealed_of_writeTable (hn : n ≤ buf.size) (h : writeTable n table tag buf = .ok k buf') :
    ∃ trailer e, Sealed tag (toBytes (buf.tail.take n)) table e ∧ e.length = n + k ∧
      buf'.bytes = buf.bytes ++ (table ++ trailer) ∧ (table ++ trailer).length = k ∧
      buf'.tail = ofBytes e ++ buf.tail.drop n := by
  have happends := appends_writeTable (toBytes (buf.tail.take n)) table tag
  rw [Buffer.length_take hn] at happends
  obtain ⟨added, hsealed, hlen, rfl⟩ := happends.ok h
  -- the table stands right behind the data
  obtain ⟨trailer, rfl⟩ : ∃ trailer, added = table ++ trailer := by
    obtain ⟨g, g', heq, -⟩ := hsealed
    refine ⟨g ++ g' ++ [tag.toByte], List.append_cancel_left (heq.trans ?_)⟩
    simp only [List.append_assoc]
  have hsize : (toBytes (buf.tail.take n) ++ (table ++ trailer)).length = n + k := by
    rw [List.length_append, Buffer.length_take hn, hlen]
  refine ⟨trailer, _, hsealed, hsize, ?_, hlen, ?_⟩
  · simp [Buffer.bytes, toBytes, ofBytes]
  · rw [ofBytes_append (toBytes _), ofBytes_toBytes, List.append_assoc, List.take_append_drop]

/-- Closed data ends in its tag. -/
theorem Sealed.readTag {data e : List UInt8} (h : Sealed tag data table e) (rest : Tail) :
    readTag (ofBytes e ++ rest) = .ok tag := by
  obtain ⟨g, g', rfl, -⟩ := h
  rw [ofBytes_concat, List.cons_append, readTag_cons]

/-- A table is read as the table of the view. -/
theorem readListTable_of_readList {t : Tail} {l : ListView} (h : readList t = .ok (l, n)) :
    readListTable t = .ok (l.table, n) := by
  rw [readListTable_eq, Maker.read_map, ← readList_eq, h]
  rfl

theorem readMessageTable_of_readMessage {t : Tail} {m : MessageView}
    (h : readMessage t = .ok (m, n)) : readMessageTable t = .ok (m.table, n) := by
  rw [readMessageTable_eq, Maker.read_map, ← readMessage_eq, h]
  rfl

/-! ### Messages -/

theorem MessageTable.needsBig_iff {entries : List Entry} :
    needsBig entries = true ↔ ∃ e ∈ entries, 255 < e.tag.toNat ∨ 65535 < e.stop := by
  simp [needsBig]

/-- **A closed message is read back.** If its last `n` bytes were closed with fields in ascending
order, `k` bytes were added to the buffer, first of all the table. The view at the end has these `n`
bytes as its data and the given fields as its entries, of which each is found by its tag and nothing
under any other tag. The tag of the message tells whether some field needed the big layout. -/
theorem writeMessageTable_readBack {entries : List Entry} (hn : n ≤ buf.size)
    (hasc : (entries.map Entry.tag).Pairwise (· < ·))
    (hstops : ∀ e ∈ entries, e.stop < 0x100000000)
    (h : writeMessageTable n entries buf = .ok k buf') :
    readTag buf'.tail = .ok
      (if ∃ e ∈ entries, 255 < e.tag.toNat ∨ 65535 < e.stop then .bigMessage else .message) ∧
    ∃ m, readMessage buf'.tail = .ok (m, n + k) ∧
      readMessageTable buf'.tail = .ok (m.table, n + k) ∧
      (∃ trailer, buf'.bytes = buf.bytes ++ (m.table.bytes ++ trailer) ∧
        (m.table.bytes ++ trailer).length = k) ∧
      m.data = buf.tail.take n ∧ m.table.dataSize = n ∧ m.table.entries = entries ∧
      (∀ tag stop, m.table.stop? tag = some stop ↔ ⟨tag, stop⟩ ∈ entries) ∧
      ∀ tag, m.table.stop? tag = none ↔ tag ∉ entries.map Entry.tag := by
  obtain ⟨trailer, e, hsealed, hlen, hbytes, hadded, htail⟩ := sealed_of_writeTable hn h
  let m := MessageView.make (MessageTable.needsBig entries) (toBytes (buf.tail.take n)) entries
  have hread : readMessage buf'.tail = .ok (m, n + k) := by
    rw [htail, ← hlen]
    exact (MessageView.form_make hsealed).read _
  have hentries : m.table.entries = entries :=
    MessageView.entries_make (MessageTable.fits_needsBig hstops) _
  have htags : m.table.tags.Pairwise (· < ·) := by rwa [MessageTable.tags, hentries]
  refine ⟨?_, m, hread, readMessageTable_of_readMessage hread, ⟨trailer, hbytes, hadded⟩,
    ofBytes_toBytes _, Buffer.length_take hn, hentries, fun tag stop => ?_, fun tag => ?_⟩
  · rw [htail, hsealed.readTag]
    exact congrArg Except.ok (if_congr MessageTable.needsBig_iff rfl rfl)
  · rw [MessageTable.stop?_eq_some_iff htags, hentries]
  · rw [MessageTable.stop?_eq_none_iff htags, MessageTable.tags, hentries]

/-- Two fields that just do not fit the small layout, behind one byte of data and one of something
else. -/
theorem writeMessageTable_readBack_big :
    ∃ (buf : Buffer) (m : MessageView),
      writeMessageTable 1 [⟨255, 65536⟩, ⟨256, 65535⟩] ⟨[7, 9]⟩ = .ok 15 buf ∧
      readTag buf.tail = .ok .bigMessage ∧ readMessage buf.tail = .ok (m, 16) ∧ m.data = [7] ∧
      m.table.entries = [⟨255, 65536⟩, ⟨256, 65535⟩] ∧ m.table.stop? 255 = some 65536 ∧
      m.table.stop? 257 = none := by
  have hwrite : ∃ buf, writeMessageTable 1 [⟨255, 65536⟩, ⟨256, 65535⟩] ⟨[7, 9]⟩ = .ok 15 buf :=
    ⟨_, rfl⟩
  obtain ⟨buf, hwrite⟩ := hwrite
  obtain ⟨htag, m, hread, -, -, hdata, -, hentries, hsome, hnone⟩ :=
    writeMessageTable_readBack (by decide) (by decide) (by decide) hwrite
  exact ⟨buf, m, hwrite, htag, hread, hdata, hentries, (hsome _ _).2 (by decide),
    (hnone _).2 (by decide)⟩

/-! ### Lists -/

namespace ListTable

variable {stops : List Nat}

theorem needsBig_iff :
    needsBig stops = true ↔ 255 < stops.length ∨ ∃ last ∈ stops.getLast?, 65535 < last := by
  simp [needsBig, Option.any_eq_true]

/-- Remainders are the numbers themselves exactly if these are smaller than the divisor. -/
theorem map_mod_eq_self_iff {m : Nat} (hm : 0 < m) :
    stops.map (· % m) = stops ↔ ∀ s ∈ stops, s < m := by
  have hself := List.map_inj_left (l := stops) (f := (· % m)) (g := id)
  rw [List.map_id] at hself
  exact hself.trans (forall₂_congr fun s _ => Nat.mod_eq_iff_lt (Nat.pos_iff_ne_zero.1 hm))

/-- What is left of offsets of four bytes in the layout that is chosen for them. -/
theorem stops_encode_needsBig (h : ∀ s ∈ stops, s < 0x100000000) (size : Nat) :
    (⟨encode (needsBig stops) stops, size, needsBig stops⟩ : ListTable).stops =
      if needsBig stops then stops else stops.map (· % 0x10000) := by
  rw [stops_encode_eq_map]
  cases needsBig stops with
  | true => exact (map_mod_eq_self_iff (by decide)).2 h
  | false => rfl

end ListTable

/-- A closed list is not too large, and it is read back with the table that was encoded. -/
theorem readListTable_of_writeListTable {stops : List Nat} (hn : n ≤ buf.size)
    (h : writeListTable n stops buf = .ok k buf') :
    n ≤ maxSize ∧ readListTable buf'.tail = .ok (⟨ListTable.encode (ListTable.needsBig stops) stops,
      n, ListTable.needsBig stops⟩, n + k) := by
  obtain ⟨-, e, hsealed, hlen, -, -, htail⟩ := sealed_of_writeTable hn h
  have hread := readListTable_of_readList
    ((ListView.form_make hsealed).read (buf.tail.drop n))
  rw [← htail, hlen, ListView.make, Buffer.length_take hn] at hread
  exact ⟨Buffer.length_take hn ▸ hsealed.length_le, hread⟩

/-- **A closed list is read back, but for offsets that its layout has no place for.** If its last
`n` bytes were closed with offsets in the data, the table at the end has the size of the data and as
many offsets as were given. They are the given ones exactly if the big layout was chosen or each of
them fits the small one; otherwise two bytes are left of each. Offsets that ascend are the given
ones in any case. -/
theorem writeListTable_readBack {stops : List Nat} (hn : n ≤ buf.size)
    (hstops : ∀ s ∈ stops, s ≤ n) (h : writeListTable n stops buf = .ok k buf') :
    ∃ table, readListTable buf'.tail = .ok (table, n + k) ∧ table.dataSize = n ∧
      table.stops.length = stops.length ∧
      (table.stops = stops ↔ (255 < stops.length ∨ ∃ last ∈ stops.getLast?, 65535 < last) ∨
        ∀ s ∈ stops, s ≤ 65535) ∧
      (table.stops ≠ stops → table.stops = stops.map (· % 0x10000)) ∧
      (stops.Pairwise (· ≤ ·) → table.stops = stops) := by
  obtain ⟨hmax, hread⟩ := readListTable_of_writeListTable hn h
  have hlt : ∀ s ∈ stops, s < 0x100000000 := fun s hs => by
    have := hstops s hs
    unfold maxSize at hmax
    omega
  have hleft := ListTable.stops_encode_needsBig hlt n
  refine ⟨_, hread, rfl, ?_, ?_, fun hne => ?_, fun hasc =>
    ListTable.stops_encode (ListTable.fits_needsBig hasc hlt) n⟩
  · rw [hleft]
    split
    · rfl
    · exact List.length_map _
  · rw [hleft, ← ListTable.needsBig_iff]
    split
    · rename_i hbig
      exact iff_of_true rfl (.inl hbig)
    · rename_i hbig
      rw [or_iff_right hbig, ListTable.map_mod_eq_self_iff (by decide)]
      exact forall₂_congr fun s _ => Nat.lt_succ_iff
  · rw [hleft] at hne ⊢
    split at hne
    · exact absurd rfl hne
    · rename_i hbig
      exact if_neg hbig

/-- Three offsets that do not ascend, of which the last one needs the big layout. -/
theorem writeListTable_readBack_big :
    ∃ (buf : Buffer) (table : ListTable), 65536 ≤ (⟨List.replicate 65537 0⟩ : Buffer).size ∧
      (∀ s ∈ [3, 0, 65536], s ≤ 65536) ∧
      writeListTable 65536 [3, 0, 65536] ⟨List.replicate 65537 0⟩ = .ok 17 buf ∧
      readListTable buf.tail = .ok (table, 65553) ∧ table.stops = [3, 0, 65536] := by
  have hsize : 65536 ≤ (⟨List.replicate 65537 0⟩ : Buffer).size := by
    rw [Buffer.size, List.length_replicate]
    decide
  have hstops : ∀ s ∈ [3, 0, 65536], s ≤ 65536 := by decide
  have hwrite : ∃ buf, writeListTable 65536 [3, 0, 65536] ⟨List.replicate 65537 0⟩ = .ok 17 buf :=
    ⟨_, rfl⟩
  obtain ⟨buf, hwrite⟩ := hwrite
  obtain ⟨table, hread, -, -, hiff, -⟩ := writeListTable_readBack hsize hstops hwrite
  exact ⟨buf, table, hsize, hstops, hwrite, hread, hiff.2 (.inl (.inr ⟨65536, rfl, by decide⟩))⟩

/-- **An offset of a list can be lost.** Of two elements the first one ends behind 65536 bytes of
data and the last one in front of them: the table takes the small layout, and 65536 becomes 0. -/
theorem writeListTable_loses_offset :
    ∃ (buf : Buffer) (table : ListTable), 65536 ≤ (⟨List.replicate 65536 0⟩ : Buffer).size ∧
      (∀ s ∈ [65536, 0], s ≤ 65536) ∧
      writeListTable 65536 [65536, 0] ⟨List.replicate 65536 0⟩ = .ok 9 buf ∧
      readListTable buf.tail = .ok (table, 65545) ∧ table.stops = [0, 0] := by
  have hsize : 65536 ≤ (⟨List.replicate 65536 0⟩ : Buffer).size :=
    Nat.le_of_eq List.length_replicate.symm
  have hwrite : ∃ buf, writeListTable 65536 [65536, 0] ⟨List.replicate 65536 0⟩ = .ok 9 buf :=
    ⟨_, rfl⟩
  obtain ⟨buf, hwrite⟩ := hwrite
  exact ⟨buf, _, hsize, by decide, hwrite, (readListTable_of_writeListTable hsize hwrite).2, rfl⟩

end Backwire.Wire
