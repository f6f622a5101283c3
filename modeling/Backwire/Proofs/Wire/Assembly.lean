import Backwire.Proofs.Wire.Acceptance
import Backwire.Proofs.Wire.Rollback

/-!
# Lists and messages put together from parts

A builder whose writes are known makes known bytes. What it records is a list of parts, each with
its place and its bytes; `Run.Places` reads them off a run, in which inner builders may be refused
as long as they are taken back. The parts stand one behind the other, and the table says where each
of them ends (`Run.Places.exec`). So the size of the whole is calculated from the places and the
sizes of the parts (`Layout.size`), it is the same bytes wherever the builder is opened, and the
only thing that can be wrong with parts that are not too large together is a tag that stands twice
(`Run.Places.makes`, `Run.Places.repeated`).

What is made is opened by a view from which each part is read where it was placed
(`Layout.Made.part?`), and it is accepted by validation if its parts are (`Layout.Made.accepted`).
-/

namespace Backwire.Wire

open Tail
open Writer (Relocatable)

variable {α : Type} {k : Layout} {enc : α → Writer Nat}

/-! ### Sizes -/

namespace Layout

/-- Whether values in these places, of `n` bytes together, need a table of the big layout. -/
def isBig : (k : Layout) → List k.Slot → Nat → Bool
  | message, tags, n => (tags.any fun tag => 255 < tag.toNat) || 65535 < n
  | list, slots, n => 255 < slots.length || 65535 < n

/-- The width of an entry of a table. -/
def entryWidth : Layout → Bool → Nat
  | message => MessageTable.entryWidth
  | list => ListTable.entryWidth

/-- The size of the table. -/
def tableSize (k : Layout) (slots : List k.Slot) (n : Nat) : Nat :=
  slots.length * k.entryWidth (k.isBig slots n)

/-- The size of data of `n` bytes that is closed by a table. -/
def closedSize (n table : Nat) : Nat := n + (table + Varint.width n + Varint.width table + 1)

/-- **The size of a message or list** with values in these places, of `n` bytes together. -/
def size (k : Layout) (slots : List k.Slot) (n : Nat) : Nat := closedSize n (k.tableSize slots n)

/-- No two values may stand under one tag. -/
def Distinct : (k : Layout) → List k.Slot → Prop
  | message, tags => tags.Nodup
  | list, _ => True

/-- One thing that is recorded: its place, and its bytes. -/
abbrev Part (k : Layout) : Type := k.Slot × List UInt8

theorem le_size (slots : List k.Slot) (n : Nat) : n ≤ k.size slots n := Nat.le_add_right n _

theorem lt_of_size_le {slots : List k.Slot} {n : Nat} (h : k.size slots n ≤ maxSize) :
    n < 0x100000000 := by
  have hle := Nat.le_trans (k.le_size slots n) h
  unfold maxSize at hle
  omega

end Layout

/-! ### Parts one behind the other -/

namespace Parts

/-- The bytes of all parts. -/
def joined (parts : List k.Part) : List UInt8 := parts.flatMap Prod.snd

/-- Where each part ends, the first one starting behind `start` bytes. -/
def stops (start : Nat) : List k.Part → List (k.Slot × Nat)
  | [] => []
  | (slot, e) :: parts => (slot, start + e.length) :: stops (start + e.length) parts

variable {parts : List k.Part} {slot : k.Slot} {e : List UInt8} {start limit : Nat}

@[simp] theorem joined_cons (slot : k.Slot) (e : List UInt8) (parts : List k.Part) :
    joined ((slot, e) :: parts) = e ++ joined parts := rfl

theorem length_joined (parts : List k.Part) :
    (joined parts).length = (parts.map fun p => p.2.length).sum := List.length_flatMap

@[simp] theorem map_fst_stops (start : Nat) (parts : List k.Part) :
    (stops start parts).map Prod.fst = parts.map Prod.fst := by
  induction parts generalizing start with
  | nil => rfl
  | cons p parts ih => rw [stops, List.map_cons, List.map_cons, ih]

@[simp] theorem length_stops (start : Nat) (parts : List k.Part) :
    (stops start parts).length = parts.length := by
  rw [← List.length_map (f := Prod.fst), map_fst_stops, List.length_map]

/-- Parts end one behind the other, up to the end of all of them. -/
theorem stops_ascend (start : Nat) (parts : List k.Part) :
    (start :: (stops start parts).map Prod.snd).Pairwise (· ≤ ·) ∧
      ∀ s ∈ (stops start parts).map Prod.snd, s ≤ start + (joined parts).length := by
  induction parts generalizing start with
  | nil => simp [stops]
  | cons p parts ih =>
    obtain ⟨slot, e⟩ := p
    obtain ⟨hasc, hle⟩ := ih (start + e.length)
    rw [stops, List.map_cons, joined_cons, List.length_append, ← Nat.add_assoc]
    refine ⟨List.pairwise_cons.2 ⟨List.forall_mem_cons.2 ⟨Nat.le_add_right _ _, fun s hs => ?_⟩,
      hasc⟩, List.forall_mem_cons.2 ⟨Nat.le_add_right _ _, hle⟩⟩
    exact Nat.le_trans (Nat.le_add_right _ _) (List.rel_of_pairwise_cons hasc hs)

/-- **The last part ends where all of them do.** -/
theorem getLast?_stops (start : Nat) (parts : List k.Part) :
    ((stops start parts).map Prod.snd).getLast? =
      if parts = [] then none else some (start + (joined parts).length) := by
  induction parts generalizing start with
  | nil => rfl
  | cons p parts ih =>
    obtain ⟨slot, e⟩ := p
    rw [stops, List.map_cons, List.getLast?_cons, ih, joined_cons, List.length_append,
      ← Nat.add_assoc]
    cases parts <;> simp [joined]

/-- A part ends behind a limit if all of them do. -/
theorem exists_lt_stop_iff (parts : List k.Part) (h : start ≤ limit) :
    (∃ p ∈ stops start parts, limit < p.2) ↔ limit < start + (joined parts).length := by
  constructor
  · rintro ⟨p, hp, hlt⟩
    exact Nat.lt_of_lt_of_le hlt ((stops_ascend start parts).2 _ (List.mem_map_of_mem hp))
  · intro hlt
    have hne : parts ≠ [] := by
      rintro rfl
      exact absurd hlt (Nat.not_lt.2 h)
    have hlast := getLast?_stops start parts
    rw [if_neg hne] at hlast
    obtain ⟨p, hp, hstop⟩ := List.mem_map.1 (List.mem_of_getLast? hlast)
    exact ⟨p, hp, hstop ▸ hlt⟩

end Parts

/-! ### Closing -/

theorem MessageTable.length_encode (big : Bool) (entries : List Entry) :
    (encode big entries).length = entries.length * entryWidth big := by
  induction entries with
  | nil => simp [encode]
  | cons e entries ih =>
    rw [encode, List.flatMap_cons, List.length_append, length_encodeEntry, List.length_cons,
      Nat.succ_mul, Nat.add_comm]
    exact congrArg (· + _) ih

theorem ListTable.length_encode (big : Bool) (stops : List Nat) :
    (encode big stops).length = stops.length * entryWidth big := by
  induction stops with
  | nil => simp [encode]
  | cons stop stops ih =>
    rw [encode, List.flatMap_cons, List.length_append, Word.length_toBytes, List.length_cons,
      Nat.succ_mul, Nat.add_comm]
    exact congrArg (· + _) ih

/-- Data that is not too large is closed, and the size of all of it is returned. -/
theorem close_of_le {data table : List UInt8} (tag : Tag) (buf : Buffer)
    (h : Layout.closedSize data.length table.length ≤ maxSize) :
    ∃ trailer, Sealed tag data table (data ++ trailer) ∧
      (data ++ trailer).length = Layout.closedSize data.length table.length ∧
      (do let n ← writeTable data.length table tag; return data.length + n : Writer Nat) buf =
        .ok (data ++ trailer).length (buf.write trailer) := by
  have htrailer := tableTrailer_eq_ok_iff.2 ⟨rfl, h⟩
  rcases Frame.close_cases buf data table tag with ⟨trailer, hsealed, hwritten⟩ | ⟨err, herr⟩
  · refine ⟨trailer, hsealed, ?_, hwritten⟩
    simp only [writeTable, htrailer] at hwritten
    exact (EStateM.Result.ok.inj hwritten).1.symm
  · simp only [writeTable, htrailer] at herr
    cases herr

namespace Frame

variable {buf : Buffer} {base data : List UInt8}

/-- **Finishing a message** in which no tag is repeated closes its data by the sorted table. -/
theorem Holds.finish_of_nodup {f : Frame .message} (h : f.Holds buf base data)
    (hnodup : (f.entries.map Prod.fst).Nodup) {big : Bool}
    (hbig : MessageTable.needsBig f.sorted = big)
    (hmax : Layout.closedSize data.length (f.entries.length * MessageTable.entryWidth big) ≤
      maxSize) :
    (f.sorted.map Entry.tag).Pairwise (· < ·) ∧
    ∃ trailer, Sealed (.ofMessage big) data (MessageTable.encode big f.sorted) (data ++ trailer) ∧
      (data ++ trailer).length =
        Layout.closedSize data.length (f.entries.length * MessageTable.entryWidth big) ∧
      f.finish buf = .ok (data ++ trailer).length (buf.write trailer) := by
  have hnone : firstRepeated f.sorted = none := by
    cases hrepeated : firstRepeated f.sorted with
    | none => rfl
    | some t =>
      have hleast := leastRepeated_of_firstRepeated f.sorted_ascending hrepeated
      exact absurd hnodup (hleast.perm f.perm_tags_sorted).not_nodup
  refine ⟨ascending_of_firstRepeated f.sorted_ascending hnone, ?_⟩
  have hlen : (MessageTable.encode big f.sorted).length =
      f.entries.length * MessageTable.entryWidth big := by
    rw [MessageTable.length_encode, Frame.sorted, List.length_mergeSort, List.length_map]
  have hdata : buf.size - f.start = data.length := by
    rw [h.size, h.start, Nat.add_sub_cancel_left]
  have hclose : f.finish buf = (do
      let n ← writeTable data.length (MessageTable.encode big f.sorted) (.ofMessage big)
      return data.length + n : Writer Nat) buf := by
    rw [finish_of_none hnone, hdata, ← hbig]
    rfl
  rw [hclose, ← hlen]
  exact close_of_le (.ofMessage big) buf (hlen ▸ hmax)

/-- **Finishing a list** closes its data by the table. -/
theorem Holds.finish_list {f : Frame .list} (h : f.Holds buf base data) {big : Bool}
    (hbig : ListTable.needsBig (f.entries.map Prod.snd) = big)
    (hmax : Layout.closedSize data.length (f.entries.length * ListTable.entryWidth big) ≤
      maxSize) :
    ∃ trailer, Sealed (.ofList big) data (ListTable.encode big (f.entries.map Prod.snd))
        (data ++ trailer) ∧
      (data ++ trailer).length =
        Layout.closedSize data.length (f.entries.length * ListTable.entryWidth big) ∧
      f.finish buf = .ok (data ++ trailer).length (buf.write trailer) := by
  have hlen : (ListTable.encode big (f.entries.map Prod.snd)).length =
      f.entries.length * ListTable.entryWidth big := by
    rw [ListTable.length_encode, List.length_map]
  have hdata : buf.size - f.start = data.length := by
    rw [h.size, h.start, Nat.add_sub_cancel_left]
  have hclose : f.finish buf = (do
      let n ← writeTable data.length (ListTable.encode big (f.entries.map Prod.snd)) (.ofList big)
      return data.length + n : Writer Nat) buf := by
    rw [← hdata, ← hbig]
    rfl
  rw [hclose, ← hlen]
  exact close_of_le (.ofList big) buf (hlen ▸ hmax)

end Frame

namespace Parts

/-- The layout that is chosen for the entries of a message is told by the parts. -/
theorem needsBig_message {parts : List (Layout.Part .message)} {entries : List Entry}
    (h : entries.Perm ((stops 0 parts).map fun (tag, stop) => ⟨tag, stop⟩)) :
    MessageTable.needsBig entries =
      Layout.isBig .message (parts.map Prod.fst) (joined parts).length := by
  have hstop := exists_lt_stop_iff parts (Nat.zero_le 65535)
  have htag : (∃ p ∈ stops 0 parts, 255 < p.1.toNat) ↔
      ∃ t ∈ parts.map Prod.fst, 255 < t.toNat := by
    rw [← map_fst_stops 0 parts]
    simp
  rw [Bool.eq_iff_iff, MessageTable.needsBig, h.any_eq, Layout.isBig]
  simp only [List.any_map, List.any_eq_true, Function.comp_apply, Bool.or_eq_true,
    decide_eq_true_eq, and_or_left, exists_or]
  rw [hstop, Nat.zero_add]
  simpa using or_congr_left htag

/-- So is the one that is chosen for the offsets of a list. -/
theorem needsBig_list (parts : List (Layout.Part .list)) :
    ListTable.needsBig ((stops 0 parts).map Prod.snd) =
      Layout.isBig .list (parts.map Prod.fst) (joined parts).length := by
  rw [ListTable.needsBig, getLast?_stops, List.length_map, length_stops, Layout.isBig,
    List.length_map, Nat.zero_add]
  cases parts <;> simp [joined]

end Parts

/-- **What is made of parts**: they are closed by the table of their ends, in the size that was
calculated. -/
structure Layout.Made (k : Layout) (parts : List k.Part) (e : List UInt8) : Prop where
  closed : k.Closed (Parts.stops 0 parts) (Parts.joined parts) e
  length : e.length = k.size (parts.map Prod.fst) (Parts.joined parts).length

/-- **Finishing a builder of parts** that are not too large together. -/
theorem Frame.Holds.finish_parts {f : Frame k} {buf : Buffer} {base : List UInt8}
    {parts : List k.Part} (h : f.Holds buf base (Parts.joined parts))
    (hentries : f.entries = Parts.stops 0 parts) (hdistinct : k.Distinct (parts.map Prod.fst))
    (hsize : k.size (parts.map Prod.fst) (Parts.joined parts).length ≤ maxSize) :
    ∃ trailer, k.Made parts (Parts.joined parts ++ trailer) ∧
      f.finish buf = .ok (Parts.joined parts ++ trailer).length (buf.write trailer) := by
  have hlen : f.entries.length = (parts.map Prod.fst).length := by
    rw [hentries, Parts.length_stops, List.length_map]
  cases k with
  | message =>
    have hperm : f.sorted.Perm ((Parts.stops 0 parts).map fun (tag, stop) => ⟨tag, stop⟩) :=
      hentries ▸ List.mergeSort_perm _ _
    have hnodup : (f.entries.map Prod.fst).Nodup := by
      rw [hentries, Parts.map_fst_stops]
      exact hdistinct
    obtain ⟨hasc, trailer, hsealed, hsum, hok⟩ :=
      h.finish_of_nodup hnodup (Parts.needsBig_message hperm) (hlen ▸ hsize)
    rw [← Parts.needsBig_message hperm] at hsealed
    rw [hlen] at hsum
    exact ⟨trailer, ⟨⟨f.sorted, hperm, hasc, hsealed⟩, hsum⟩, hok⟩
  | list =>
    have hbig : ListTable.needsBig (f.entries.map Prod.snd) = _ :=
      hentries ▸ Parts.needsBig_list parts
    obtain ⟨trailer, hsealed, hsum, hok⟩ := h.finish_list hbig (hlen ▸ hsize)
    rw [← hbig, hentries] at hsealed
    rw [hlen] at hsum
    exact ⟨trailer, ⟨hsealed, hsum⟩, hok⟩

/-! ### Runs -/

/-- **The writer adds these bytes**, whatever was there before. -/
def Puts (w : Writer Nat) (e : List UInt8) : Prop :=
  ∀ buf : Buffer, w buf = .ok e.length (buf.write e)

/-- What is put into an empty buffer is put into any. -/
theorem puts_of_empty {w : Writer Nat} (hw : Relocatable w) {e : List UInt8}
    (h : w {} = .ok e.length (Buffer.write {} e)) : Puts w e := fun buf => by
  have hplaced := hw buf.bytes {}
  rw [Buffer.empty_behind, h, Writer.placed, Buffer.behind_bytes, Buffer.bytes_write] at hplaced
  exact hplaced

/-- **The builder makes these bytes**, wherever it is opened. -/
def Run.Makes (enc : α → Writer Nat) (run : Run α k) (e : List UInt8) : Prop :=
  ∀ buf, ∃ events, run.build enc buf = (.finished (.ok e.length), buf.write e, events)

/-- **The builder is refused and taken back**, wherever it is opened. -/
def Run.Refused (enc : α → Writer Nat) (run : Run α k) (err : WireError) : Prop :=
  ∀ buf, ∃ events, run.build enc buf = (.finished (.error err), buf, events)

/-- **What a run places**: values that are written, and inner builders that are finished. Inner
builders that are refused are taken back and place nothing. -/
inductive Run.Places (enc : α → Writer Nat) : {k : Layout} → Run α k → List k.Part → Prop where
  | finish {k : Layout} : Places enc (.finish : Run α k) []
  | write {k : Layout} {slot : k.Slot} {a : α} {rest : Run α k} {e : List UInt8}
      {parts : List k.Part} (ha : Puts (enc a) e) (h : Places enc rest parts) :
      Places enc (.write slot [a] rest) ((slot, e) :: parts)
  | nest {k : Layout} {slot : k.Slot} {j : Layout} {inner : Run α j} {rest : Run α k}
      {e : List UInt8} {parts : List k.Part} (hinner : inner.Makes enc e)
      (h : Places enc rest parts) : Places enc (.nest slot inner rest) ((slot, e) :: parts)
  | refused {k : Layout} {slot : k.Slot} {j : Layout} {inner : Run α j} {rest : Run α k}
      {err : WireError} {parts : List k.Part} (hinner : inner.Refused enc err)
      (h : Places enc rest parts) : Places enc (.nest slot inner rest) parts

/-- Where the buffer ends can be said in the table. -/
theorem Frame.Holds.relativeStop {f : Frame k} {buf : Buffer} {base data : List UInt8}
    (h : f.Holds buf base data) (hlt : data.length < 0x100000000) :
    relativeStop f.start buf.size = .ok data.length := by
  have hlen : buf.size - f.start = data.length := by
    rw [h.size, h.start, Nat.add_sub_cancel_left]
  exact Frame.relativeStop_eq_ok_iff.2 ⟨hlen.symm, by rwa [hlen]⟩

namespace Run

variable {run : Run α k} {parts : List k.Part}

/-- **The parts are written one behind the other**, and what is left of the run is to finish. -/
theorem Places.exec (h : run.Places enc parts) {f : Frame k} {buf : Buffer}
    {base data : List UInt8} (hholds : f.Holds buf base data)
    (hsize : data.length + (Parts.joined parts).length < 0x100000000) :
    ∃ f' buf' events, f'.Holds buf' base (data ++ Parts.joined parts) ∧
      f'.entries = f.entries ++ Parts.stops data.length parts ∧
      run.exec enc f buf =
        ((Run.finish.exec enc f' buf').1, (Run.finish.exec enc f' buf').2.1, events) := by
  induction h generalizing f buf data with
  | finish =>
    refine ⟨f, buf, _, ?_, (List.append_nil _).symm, rfl⟩
    rwa [Parts.joined, List.flatMap_nil, List.append_nil]
  | @write slot a rest e parts ha _ ih =>
    rw [Parts.joined_cons, List.length_append, ← Nat.add_assoc, ← List.length_append] at hsize
    have hwritten := hholds.write e
    have hall : f.writeAll enc slot [a] buf =
        (.ok (), f.record slot (data ++ e).length, buf.write e) := by
      simp only [Frame.writeAll, Frame.write, ha buf, hwritten.relativeStop (by omega)]
    obtain ⟨f', buf', events, hholds', hentries, hrest⟩ := ih (hwritten.record slot) hsize
    refine ⟨f', buf', _, ?_, ?_, exec_write hall hrest⟩
    · rwa [Parts.joined_cons, ← List.append_assoc]
    · rw [hentries, Frame.record, Parts.stops, List.append_assoc, List.length_append]
      rfl
  | @nest slot j inner rest e parts hinner _ ih =>
    rw [Parts.joined_cons, List.length_append, ← Nat.add_assoc, ← List.length_append] at hsize
    have hwritten := hholds.write e
    obtain ⟨innerEvents, hbuild⟩ := hinner buf
    have hadopt : f.adopt slot (.finished (.ok e.length)) (buf.write e).size =
        (.finished (.ok e.length), f.record slot (data ++ e).length) := by
      simp only [Frame.adopt, hwritten.relativeStop (by omega)]
    obtain ⟨f', buf', events, hholds', hentries, hrest⟩ := ih (hwritten.record slot) hsize
    refine ⟨f', buf', _, ?_, ?_, exec_nest hbuild hadopt hrest⟩
    · rwa [Parts.joined_cons, ← List.append_assoc]
    · rw [hentries, Frame.record, Parts.stops, List.append_assoc, List.length_append]
      rfl
  | @refused slot j inner rest err parts hinner _ ih =>
    obtain ⟨innerEvents, hbuild⟩ := hinner buf
    obtain ⟨f', buf', events, hholds', hentries, hrest⟩ := ih hholds hsize
    exact ⟨f', buf', _, hholds', hentries, exec_nest hbuild rfl hrest⟩

/-- What was written since an empty builder was opened are its parts. -/
theorem Places.exec_openAt (h : run.Places enc parts)
    (hsize : (Parts.joined parts).length < 0x100000000) (buf : Buffer) :
    ∃ f buf' events, f.Holds buf' buf.bytes (Parts.joined parts) ∧
      f.entries = Parts.stops 0 parts ∧
      run.build enc buf =
        ((Run.finish.exec enc f buf').1, (Run.finish.exec enc f buf').2.1, events) :=
  h.exec (Frame.holds_openAt k buf) (by simpa using hsize)

/-- **A builder of parts makes them**, closed by a table. -/
theorem Places.makes (henc : ∀ a, Relocatable (enc a)) (h : run.Places enc parts)
    (hdistinct : k.Distinct (parts.map Prod.fst))
    (hsize : k.size (parts.map Prod.fst) (Parts.joined parts).length ≤ maxSize) :
    ∃ e, k.Made parts e ∧ run.Makes enc e := by
  obtain ⟨f, buf', events, hholds, hentries, hexec⟩ :=
    h.exec_openAt (Layout.lt_of_size_le hsize) {}
  obtain ⟨trailer, hmade, hfinish⟩ := hholds.finish_parts hentries hdistinct hsize
  rw [Run.exec, hfinish] at hexec
  have hbytes : (buf'.write trailer).bytes = Parts.joined parts ++ trailer :=
    (hholds.write trailer).bytes
  refine ⟨_, hmade, fun buf => ⟨events, ?_⟩⟩
  rw [build_eq henc, hexec, hbytes]

/-- **A message with two parts under one tag is refused** for the smallest such tag. -/
theorem Places.repeated {run : Run α .message} {parts : List (Layout.Part .message)}
    (h : run.Places enc parts) (hrepeated : ¬(parts.map Prod.fst).Nodup)
    (hsize : (Parts.joined parts).length < 0x100000000) :
    ∃ t, LeastRepeated t (parts.map Prod.fst) ∧ run.Refused enc (.duplicateTag t) := by
  have hcase (buf : Buffer) : ∃ t events, LeastRepeated t (parts.map Prod.fst) ∧
      run.build enc buf = (.finished (.error (.duplicateTag t)), buf, events) := by
    obtain ⟨f, buf', events, hholds, hentries, hexec⟩ := h.exec_openAt hsize buf
    have htags : f.entries.map Prod.fst = parts.map Prod.fst :=
      hentries ▸ Parts.map_fst_stops 0 parts
    rcases hholds.finish_message_cases with ⟨t, hleast, hfinish⟩ | ⟨hnodup, -⟩
    · rw [htags] at hleast
      have hbuf : Buffer.ofBytes buf.bytes = buf := Buffer.ext_bytes (Buffer.bytes_ofBytes _)
      rw [Run.exec, hfinish, hbuf] at hexec
      exact ⟨t, events, hleast, hexec⟩
    · rw [htags] at hnodup
      exact absurd hnodup hrepeated
  obtain ⟨t, -, hleast, -⟩ := hcase {}
  refine ⟨t, hleast, fun buf => ?_⟩
  obtain ⟨t', events, hleast', hbuild⟩ := hcase buf
  obtain rfl := hleast.unique hleast'
  exact ⟨events, hbuild⟩

end Run

/-! ### Reading the parts -/

section Views

variable {view : k.View} {parts : List k.Part} {e : List UInt8}

/-- **What is made of parts is opened by a view** of their data and their ends. -/
theorem Layout.Made.opens (h : k.Made parts e) : ∃ view, (k.value view).Form e ∧
    k.Opens view (Parts.stops 0 parts) (Parts.joined parts) := by
  obtain ⟨hasc, hinside⟩ := Parts.stops_ascend 0 parts
  rw [Nat.zero_add] at hinside
  exact h.closed.opens hasc.of_cons hinside

/-- The part of an index is found at the end of some bytes, also if the view is of more than these
parts. -/
theorem Layout.Continues.part?_stops {front data : List UInt8} {i j : Nat} {p : k.Part}
    (h : k.Continues view i front.length (Parts.stops front.length parts))
    (hdata : k.data view = ofBytes data) (hpre : (front ++ Parts.joined parts) <+: data)
    (hp : parts[j]? = some p) :
    ∃ rest, k.part? view p.1 (i + j) = some (ofBytes p.2 ++ rest) := by
  induction parts generalizing front i j with
  | nil => cases hp
  | cons first parts ih =>
    obtain ⟨slot, e⟩ := first
    rw [Parts.joined_cons, ← List.append_assoc] at hpre
    rw [Parts.stops, ← List.length_append] at h
    cases j with
    | zero =>
      cases hp
      exact h.part? hdata ((List.prefix_append _ _).trans hpre) (Nat.le_refl _)
    | succ j =>
      rw [Nat.add_comm j, ← Nat.add_assoc]
      exact ih h.tail hpre hp

/-- **A part is found where it was placed.** -/
theorem Layout.Opens.part? (h : k.Opens view (Parts.stops 0 parts) (Parts.joined parts)) {j : Nat}
    {p : k.Part} (hp : parts[j]? = some p) :
    ∃ rest, k.part? view p.1 j = some (ofBytes p.2 ++ rest) := by
  obtain ⟨hdata, hcontinues⟩ := h.continues
  have hpart := @Layout.Continues.part?_stops _ _ _ [] _ _ _ _ hcontinues hdata List.prefix_rfl hp
  rwa [Nat.zero_add] at hpart

/-- It is read by any reader that takes it off the end of a string. -/
theorem Layout.Opens.get? (h : k.Opens view (Parts.stops 0 parts) (Parts.joined parts)) {j : Nat}
    {p : k.Part} (hp : parts[j]? = some p) {β : Type} {read : Reader β} {v : β} {n : Nat}
    (hread : ∀ rest, read (ofBytes p.2 ++ rest) = .ok (v, n)) :
    k.get? view read p.1 j = .ok (some v) := by
  obtain ⟨rest, hpart⟩ := h.part? hp
  exact Layout.get?_of_part? hpart (hread rest)

/-! ### Validation -/

/-- **Validation accepts these bytes** at the end of any string, with so many levels left. -/
def AcceptedWithin (levels : Nat) (e : List UInt8) : Prop :=
  ∀ rest, validateWithin levels (ofBytes e ++ rest) = .ok e.length

/-- What has no parts is accepted. -/
theorem Value.Form.accepted {v : Value} (h : v.Form e) (hv : ∀ check, v.Checked check)
    (levels : Nat) : AcceptedWithin (levels + 1) e :=
  fun rest => validateWithin_succ_iff.2 ⟨v, h.read rest, hv _⟩

/-- The checks of parts that are accepted succeed. -/
theorem Layout.checks_stops {levels : Nat} {front data : List UInt8}
    (hparts : ∀ p ∈ parts, AcceptedWithin levels p.2)
    (hpre : (front ++ Parts.joined parts) <+: data) :
    k.Checks (validateWithin levels) data front.length (Parts.stops front.length parts) := by
  induction parts generalizing front with
  | nil => cases k <;> simp [Parts.stops, Layout.Checks, ListTable.extents]
  | cons first parts ih =>
    obtain ⟨slot, e⟩ := first
    obtain ⟨hfirst, hparts⟩ := List.forall_mem_cons.1 hparts
    rw [Parts.joined_cons, ← List.append_assoc] at hpre
    rw [Parts.stops, ← List.length_append]
    have hcheck (rest : Tail) (n : Nat) :
        validateWithin levels (ofBytes e ++ rest) = .ok n ↔ n = e.length ∧ True := by
      rw [hfirst rest, Except.ok.injEq, and_true, eq_comm]
    exact (Layout.checks_cons ((List.prefix_append _ _).trans hpre) (Nat.add_zero _).symm hcheck).2
      ⟨⟨fun _ => rfl, trivial⟩, ih hparts hpre⟩

/-- **What is made of parts is accepted one level above them.** -/
theorem Layout.Made.accepted (h : k.Made parts e) {levels : Nat}
    (hparts : ∀ p ∈ parts, AcceptedWithin levels p.2) : AcceptedWithin (levels + 1) e := by
  intro rest
  obtain ⟨view, hform, hopens⟩ := h.opens
  refine validateWithin_succ_iff.2 ⟨_, hform.read rest, hopens.checked_iff.2 ?_⟩
  exact @Layout.checks_stops _ _ levels [] _ hparts List.prefix_rfl

end Views

/-! ### Parts of values -/

section Values

variable {β γ δ : Type} {place : β → k.Slot} {F : β → List UInt8 → Prop} {size : β → Nat}
  {as : List β} {parts : List k.Part} {e : List UInt8}

/-- **There is one part for each value**, where it is placed and as `F` says. -/
def Parts.Of (place : β → k.Slot) (F : β → List UInt8 → Prop) : List β → List k.Part → Prop :=
  List.Forall₂ fun a p => p.1 = place a ∧ F a p.2

namespace Parts.Of

theorem map_fst (h : Parts.Of place F as parts) : parts.map Prod.fst = as.map place := by
  induction h with
  | nil => rfl
  | cons h _ ih => rw [List.map_cons, List.map_cons, h.1, ih]

theorem length_joined (h : Parts.Of place F as parts) (hF : ∀ a e, F a e → e.length = size a) :
    (Parts.joined parts).length = (as.map size).sum := by
  induction h with
  | nil => rfl
  | cons h _ ih =>
    rw [Parts.joined, List.flatMap_cons, List.length_append, hF _ _ h.2, List.map_cons,
      List.sum_cons, ← ih]
    rfl

theorem getElem? (h : Parts.Of place F as parts) {i : Nat} {a : β} (ha : as[i]? = some a) :
    ∃ p, parts[i]? = some p ∧ p.1 = place a ∧ F a p.2 := by
  induction h generalizing i with
  | nil => cases ha
  | cons h _ ih =>
    cases i with
    | zero =>
      cases ha
      exact ⟨_, rfl, h⟩
    | succ i => exact ih ha

theorem forall_mem (h : Parts.Of place F as parts) {P : List UInt8 → Prop}
    (hP : ∀ a ∈ as, ∀ e, F a e → P e) : ∀ p ∈ parts, P p.2 := by
  induction h with
  | nil => nofun
  | cons h _ ih =>
    obtain ⟨hfirst, hrest⟩ := List.forall_mem_cons.1 hP
    exact List.forall_mem_cons.2 ⟨hfirst _ h.2, ih hrest⟩

end Parts.Of

/-- **What is made of values**: of one part for each of them. -/
def Layout.MadeOf (k : Layout) (place : β → k.Slot) (F : β → List UInt8 → Prop) (as : List β)
    (e : List UInt8) : Prop :=
  ∃ parts, Parts.Of place F as parts ∧ k.Made parts e

/-- **A builder of values makes them**, in the size that is calculated from theirs. -/
theorem Run.Places.makes_of {run : Run α k} (henc : ∀ a, Relocatable (enc a))
    (h : run.Places enc parts) (hof : Parts.Of place F as parts)
    (hF : ∀ a e, F a e → e.length = size a) (hdistinct : k.Distinct (as.map place))
    (hsize : k.size (as.map place) (as.map size).sum ≤ maxSize) :
    ∃ e, k.MadeOf place F as e ∧ e.length = k.size (as.map place) (as.map size).sum ∧
      run.Makes enc e := by
  rw [← hof.map_fst] at hdistinct
  rw [← hof.map_fst, ← hof.length_joined hF] at hsize ⊢
  obtain ⟨e, hmade, hmakes⟩ := h.makes henc hdistinct hsize
  exact ⟨e, ⟨parts, hof, hmade⟩, hmade.length, hmakes⟩

/-- No value is larger than all of them. -/
theorem Layout.le_of_size_le (h : k.size (as.map place) (as.map size).sum ≤ maxSize) :
    ∀ a ∈ as, size a ≤ maxSize :=
  fun _ ha => (List.le_sum_of_mem (List.mem_map_of_mem ha)).trans ((k.le_size _ _).trans h)

theorem Layout.MadeOf.accepted (h : k.MadeOf place F as e) {levels : Nat}
    (hF : ∀ a ∈ as, ∀ e, F a e → AcceptedWithin levels e) : AcceptedWithin (levels + 1) e := by
  obtain ⟨parts, hof, hmade⟩ := h
  exact hmade.accepted (hof.forall_mem hF)

/-- **A view of values** lists their places, and finds for each of them bytes that end as `F`
says. -/
structure Layout.Views (k : Layout) (place : β → k.Slot) (F : β → List UInt8 → Prop) (as : List β)
    (view : k.View) : Prop where
  lists : k.Lists view (as.map place)
  part : ∀ i a, as[i]? = some a →
    ∃ e rest, F a e ∧ k.part? view (place a) i = some (ofBytes e ++ rest)

theorem Layout.MadeOf.views (h : k.MadeOf place F as e) :
    ∃ view, (k.value view).Form e ∧ k.Views place F as view := by
  obtain ⟨parts, hof, hmade⟩ := h
  obtain ⟨view, hform, hopens⟩ := hmade.opens
  have hlists := hopens.lists
  rw [Parts.map_fst_stops, hof.map_fst] at hlists
  refine ⟨view, hform, hlists, fun i a ha => ?_⟩
  obtain ⟨p, hp, hplace, hF⟩ := hof.getElem? ha
  obtain ⟨rest, hpart⟩ := hopens.part? hp
  exact ⟨p.2, rest, hF, hplace ▸ hpart⟩

/-- **A list read as values**: there are as many elements, and each is read by its index and in turn
as what shows its value. -/
structure ListView.ReadsAs (l : ListView) (read : Reader δ) (shows : δ → β → Prop) (as : List β) :
    Prop where
  length : l.length = as.length
  element : ∀ i a, as[i]? = some a → ∃ v, l.read? read i = .ok (some v) ∧ shows v a
  items : List.Forall₂ (fun r a => ∃ v, r = .ok v ∧ shows v a) (l.items read) as

theorem Layout.Views.readsAs {place : β → Unit} {l : ListView} {read : Reader δ}
    {shows : δ → β → Prop} (h : Layout.Views .list place F as l)
    (hread : ∀ a e rest, F a e → ∃ v n, read (ofBytes e ++ rest) = .ok (v, n) ∧ shows v a) :
    l.ReadsAs read shows as := by
  have hlength : l.length = as.length := h.lists.trans (List.length_map _)
  have helement (i : Nat) (a : β) (ha : as[i]? = some a) :
      ∃ v, l.read? read i = .ok (some v) ∧ (l.items read)[i]? = some (.ok v) ∧ shows v a := by
    obtain ⟨e, rest, hF, hpart⟩ := h.part i a ha
    obtain ⟨v, n, hv, hshows⟩ := hread a e rest hF
    exact ⟨v, ListView.read?_of_raw? hpart hv, ListView.items_of_raw? hpart hv, hshows⟩
  refine ⟨hlength, fun i a ha => ?_, List.forall₂_iff_get.2 ⟨?_, fun i hi hi' => ?_⟩⟩
  · obtain ⟨v, hv, -, hshows⟩ := helement i a ha
    exact ⟨v, hv, hshows⟩
  · rw [ListView.length_items, hlength]
  · obtain ⟨v, -, hv, hshows⟩ := helement i _ (List.getElem?_eq_getElem hi')
    refine ⟨v, ?_, hshows⟩
    rw [List.getElem?_eq_getElem hi] at hv
    exact Option.some.inj hv

/-- **A field read as what was set**: it is there if it was set, and then it is read as what shows
that; otherwise it is read as the default. -/
structure ReadsAs (has : Bool) (get : Except WireError δ) (default : δ) (shows : δ → γ → Prop)
    (IsSet : γ → Prop) : Prop where
  has_iff : has = true ↔ ∃ c, IsSet c
  value : ∀ c, IsSet c → ∃ v, get = .ok v ∧ shows v c
  unset : (∀ c, ¬IsSet c) → get = .ok default

/-- A field of a view of values is read as the value that was set under its tag. -/
theorem Layout.Views.field {place : β → UInt16} {m : MessageView}
    (h : Layout.Views .message place F as m) {tag : UInt16} {make : γ → β}
    (hmake : ∀ a, place a = tag ↔ ∃ c, make c = a) {read : Reader δ} {shows : δ → γ → Prop}
    (hread : ∀ c e rest, F (make c) e → ∃ v n, read (ofBytes e ++ rest) = .ok (v, n) ∧ shows v c)
    (default : δ) :
    ReadsAs (m.has tag) (m.readOr read default tag) default shows (make · ∈ as) := by
  obtain ⟨hasc, hperm, habsent⟩ := h.lists
  have hmem : tag ∈ as.map place ↔ ∃ c, make c ∈ as := by
    rw [List.mem_map]
    constructor
    · rintro ⟨a, ha, htag⟩
      obtain ⟨c, rfl⟩ := (hmake a).1 htag
      exact ⟨c, ha⟩
    · rintro ⟨c, hc⟩
      exact ⟨_, hc, (hmake _).2 ⟨c, rfl⟩⟩
  refine ⟨?_, fun c hc => ?_, fun hnone => ?_⟩
  · rw [MessageView.has, MessageTable.contains_iff hasc, hperm.mem_iff, hmem]
  · obtain ⟨i, hi⟩ := List.mem_iff_getElem?.1 hc
    obtain ⟨e, rest, hF, hpart⟩ := h.part i _ hi
    rw [(hmake _).2 ⟨c, rfl⟩] at hpart
    obtain ⟨v, n, hv, hshows⟩ := hread c e rest hF
    refine ⟨v, ?_, hshows⟩
    rw [MessageView.readOr, MessageView.read?_of_field? hpart hv]
    rfl
  · rw [MessageView.readOr, habsent tag fun ht => ?_]
    · rfl
    · obtain ⟨c, hc⟩ := hmem.1 ht
      exact hnone c hc

end Values

end Backwire.Wire
