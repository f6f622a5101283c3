import Backwire.Proofs.Wire.Acceptance
import Backwire.Proofs.Wire.Agreement

/-!
# Round trips

What a writer added is found again at the end of the buffer, whatever was in the buffer before: as
the value that was written, with the tag it was written with and the size that writing returned, and
it is valid.

For a value of a builtin type this is what its forms are made for. A list that is written at once is
what a builder makes that is given its elements and finished (`build_of_writeList`); each element
stands directly behind the one before, so nothing that validation could refuse lies between them.
-/

namespace Backwire.Wire

open Tail

variable {α β : Type} {buf buf' : Buffer} {n : Nat}

/-! ### Writers that succeed -/

theorem Writer.bind_eq_ok_iff {x : Writer α} {f : α → Writer β} {b : β} :
    (x >>= f) buf = .ok b buf' ↔ ∃ a buf₁, x buf = .ok a buf₁ ∧ f a buf₁ = .ok b buf' := by
  change EStateM.bind x f buf = _ ↔ _
  unfold EStateM.bind
  cases x buf <;> simp

theorem Writer.ofExcept_eq_ok_iff {r : Except WireError α} {a : α} :
    Writer.ofExcept r buf = .ok a buf' ↔ r = .ok a ∧ buf' = buf := by
  cases r with
  | error e => exact ⟨nofun, nofun⟩
  | ok b =>
    change EStateM.Result.ok b buf = _ ↔ _
    simp [eq_comm]

theorem Writer.get_bind (f : Buffer → Writer α) (buf : Buffer) :
    (do let b ← get; f b : Writer α) buf = f buf buf := rfl

theorem writeElements_cons_eq_ok_iff {write : α → Writer Nat} {start : Nat} {a : α} {rest : List α}
    {stops : List Nat} : writeElements write start (a :: rest) buf = .ok stops buf' ↔
      ∃ m buf₁ stop later, write a buf = .ok m buf₁ ∧ relativeStop start buf₁.size = .ok stop ∧
        writeElements write start rest buf₁ = .ok later buf' ∧ stops = stop :: later := by
  rw [writeElements, Writer.bind_eq_ok_iff]
  simp only [Writer.get_bind, Writer.bind_eq_ok_iff, Writer.ofExcept_eq_ok_iff]
  constructor
  · rintro ⟨m, buf₁, hwrite, stop, _, ⟨hstop, rfl⟩, later, _, hlater, h⟩
    cases h
    exact ⟨m, _, stop, later, hwrite, hstop, hlater, rfl⟩
  · rintro ⟨m, buf₁, stop, later, hwrite, hstop, hlater, rfl⟩
    exact ⟨m, buf₁, hwrite, stop, buf₁, ⟨hstop, rfl⟩, later, buf', hlater, rfl⟩

/-- A list is written where its elements are, and its table behind them. -/
theorem writeList_eq_ok_iff {write : α → Writer Nat} {items : List α} :
    writeList write items buf = .ok n buf' ↔ ∃ stops buf₁ m,
      writeElements write buf.size items buf = .ok stops buf₁ ∧
        writeListTable (buf₁.size - buf.size) stops buf₁ = .ok m buf' ∧
          n = buf₁.size - buf.size + m := by
  have hattempt : writeList write items buf = .ok n buf' ↔
      (do
        let stops ← writeElements write buf.size items
        let b ← get
        let m ← writeListTable (b.size - buf.size) stops
        return b.size - buf.size + m : Writer Nat) buf = .ok n buf' := by
    unfold writeList
    dsimp only
    split
    · rename_i h
      rw [← h]
    · rename_i h
      refine ⟨nofun, fun h' => ?_⟩
      cases h.symm.trans h'
  rw [hattempt, Writer.bind_eq_ok_iff]
  simp only [Writer.get_bind, Writer.bind_eq_ok_iff]
  constructor
  · rintro ⟨stops, buf₁, helements, m, _, htable, h⟩
    cases h
    exact ⟨stops, buf₁, m, helements, htable, rfl⟩
  · rintro ⟨stops, buf₁, m, helements, htable, rfl⟩
    exact ⟨stops, buf₁, helements, m, buf', htable, rfl⟩

/-! ### A list written at once as a run of a builder -/

/-- Elements that were recorded in turn, each directly behind the one before. -/
def Contents.ofList : List α → Contents α .list
  | [] => .empty
  | a :: rest => .value () 0 a (ofList rest)

namespace Contents

theorem seamless_ofList (items : List α) : (ofList items).Seamless := by
  induction items with
  | nil => trivial
  | cons a rest ih => exact ⟨fun _ => rfl, ih⟩

theorem height_ofList_le (items : List α) : (ofList items).height ≤ 1 := by
  induction items with
  | nil => exact Nat.zero_le 1
  | cons a rest ih => exact Nat.max_le.2 ⟨Nat.le_refl 1, ih⟩

theorem length_slots_ofList (items : List α) : (ofList items).slots.length = items.length := by
  induction items with
  | nil => rfl
  | cons a rest ih => exact congrArg Nat.succ ih

/-- The elements are read by their indices. -/
theorem ReadFrom.read?_ofList {items : List Datum} {l : ListView} {i : Nat}
    (h : (ofList items).ReadFrom l i) {j : Nat} {d : Datum} (hd : items[j]? = some d) :
    l.read? d.builtin.read (i + j) = .ok (some d) := by
  induction items generalizing i j with
  | nil => cases hd
  | cons a rest ih =>
    cases j with
    | zero =>
      cases hd
      exact h.1
    | succ j =>
      rw [Nat.add_comm j, ← Nat.add_assoc]
      exact ih h.2 hd

end Contents

/-- **Elements that are written in turn** are recorded by a builder in the same way, with nothing
between them. -/
theorem Frame.writeAll_of_writeElements {enc : α → Writer Nat} {F : α → List UInt8 → Prop}
    (henc : ∀ a, Appends (enc a) (F a)) {f : Frame .list} {base data : List UInt8} {items : List α}
    {stops : List Nat} (h : f.Holds buf base data) (hlast : f.last = data.length)
    (hwrite : writeElements enc f.start items buf = .ok stops buf') :
    f.writeAll enc () items buf = (.ok (), ⟨f.start, f.entries ++ stops.map (Prod.mk ())⟩, buf') ∧
      f.recorded enc () items buf .empty = .ofList items := by
  -- what carries the induction: the last entry ends where the buffer does, so no gap arises
  induction items generalizing f buf data stops with
  | nil =>
    cases hwrite
    simp [writeAll, recorded, Contents.ofList]
  | cons a rest ih =>
    obtain ⟨m, buf₁, stop, later, ha, hstop, hlater, rfl⟩ := writeElements_cons_eq_ok_iff.1 hwrite
    have hone : f.write enc () a buf = (.ok (), f.record () stop, buf₁) := by
      rw [Frame.write, ha]
      dsimp only
      rw [hstop]
    rcases h.write_cases henc () a with ⟨e, -, hone'⟩ | ⟨err, junk, hone'⟩
    · have hgap : f.gap buf = 0 := by
        have := h.gap
        omega
      have hrecord : f.record () stop = f.record () (data ++ e).length ∧ buf₁ = buf.write e := by
        simpa using hone.symm.trans hone'
      have hholds : (f.record () stop).Holds buf₁ base (data ++ e) := by
        rw [hrecord.1, hrecord.2]
        exact (h.write e).record ()
      have hlast' : (f.record () stop).last = (data ++ e).length := by
        rw [hrecord.1, last_record]
      obtain ⟨hall, hrecorded⟩ := ih hholds hlast' hlater
      refine ⟨?_, ?_⟩
      · rw [writeAll, hone]
        dsimp only
        rw [hall, record, List.append_assoc]
        rfl
      · rw [recorded, hone]
        dsimp only
        rw [hrecorded, hgap, Contents.ofList]
    · cases hone.symm.trans hone'

/-- **Writing a whole list is running a builder** that is given the elements and then finished; it
records exactly these. -/
theorem build_of_writeList {enc : α → Writer Nat} {F : α → List UInt8 → Prop}
    (henc : ∀ a, Appends (enc a) (F a)) {items : List α}
    (h : writeList enc items buf = .ok n buf') :
    ∃ events, (Run.write (k := .list) () items .finish).build enc buf =
        (.finished (.ok n), buf', events) ∧
      (Run.write (k := .list) () items .finish).recorded enc (.openAt .list buf) buf =
        .ofList items := by
  obtain ⟨stops, buf₁, m, helements, htable, rfl⟩ := writeList_eq_ok_iff.1 h
  obtain ⟨hall, hrecorded⟩ :=
    Frame.writeAll_of_writeElements henc (Frame.holds_openAt .list buf) rfl helements
  have hstops : (stops.map (Prod.mk ())).map Prod.snd = stops := by
    rw [List.map_map]
    exact List.map_id stops
  have hfinish : Frame.finish (k := .list) ⟨buf.size, stops.map (Prod.mk ())⟩ buf₁ =
      .ok (buf₁.size - buf.size + m) buf' := by
    rw [Frame.finish, hstops, Writer.get_bind]
    exact Writer.bind_eq_ok_iff.2 ⟨m, buf', htable, rfl⟩
  have hrest : (Run.finish : Run α .list).exec enc ⟨buf.size, stops.map (Prod.mk ())⟩ buf₁ =
      (.finished (.ok (buf₁.size - buf.size + m)), buf', []) := by
    rw [Run.exec, hfinish]
  exact ⟨_, Run.exec_write hall hrest, (Run.recorded_write hall).trans hrecorded⟩

/-! ### What is found at the end of the buffer -/

/-- **A value was written**: `n` bytes that end in its tag were added, their tag and size are told
at the end of the buffer, and they are valid. -/
structure Wrote (buf buf' : Buffer) (tag : Tag) (n : Nat) : Prop where
  appended : ∃ e, buf'.bytes = buf.bytes ++ e ∧ e.length = n ∧ e.getLast? = some tag.toByte
  extent : readExtent buf'.tail = .ok (tag, n)
  valid : validate buf'.tail = .ok n

/-- **The list shows these elements**: each is read by its index, all are read in turn, and their
offsets start at zero and never decrease. -/
structure ListView.Shows (l : ListView) (b : Builtin) (values : List Datum) : Prop where
  length : l.length = values.length
  element : ∀ i, l.read? b.read i = .ok values[i]?
  items : l.items b.read = values.map .ok
  first : values ≠ [] → ∃ stop, l.table.bounds? 0 = some (0, stop)
  ascending : l.table.stops.Pairwise (· ≤ ·)

/-- The size of what is read as a value. -/
theorem readExtent_of_read {t : Tail} {v : Value} (h : Value.read t = .ok (v, n)) :
    readExtent t = .ok (v.tag, n) := by
  obtain ⟨tag, htag⟩ := Reading.readExtent_of_run (k := .value) h
  rw [htag, Value.tag_of_read (readExtent_eq_ok_iff.1 htag).1 h]

theorem Value.Form.wrote {v : Value} {e : List UInt8} (h : v.Form e)
    (hbytes : buf'.bytes = buf.bytes ++ e) (hvalid : validate buf'.tail = .ok e.length) :
    Wrote buf buf' v.tag e.length := by
  refine ⟨⟨e, hbytes, rfl, ?_⟩, ?_, hvalid⟩
  · obtain ⟨p, rfl⟩ := h.last
    exact List.getLast?_concat
  · rw [Buffer.tail_eq_of_bytes hbytes]
    exact readExtent_of_read (h.read buf.tail)

/-- A value of a builtin type. -/
theorem Datum.wrote_of_write {d : Datum} (h : d.write buf = .ok n buf') :
    Wrote buf buf' d.tag n ∧ d.builtin.read buf'.tail = .ok (d, n) := by
  obtain ⟨e, he, rfl, rfl⟩ := d.appends.ok h
  have hbytes : Buffer.bytes ⟨ofBytes e ++ buf.tail⟩ = buf.bytes ++ e := buf.bytes_write e
  have hvalid : validate (ofBytes e ++ buf.tail) = .ok e.length :=
    (validateWithin_datum he (maxDepth + 1) buf.tail e.length).2 ⟨rfl, Nat.succ_pos _⟩
  exact ⟨Value.Form.wrote (v := .datum d) he hbytes hvalid, he.read buf.tail⟩

/-- An element that is read by its index is read in turn. -/
theorem ListView.items_of_read? {l : ListView} {read : Reader α} {i : Nat} {v : α}
    (h : l.read? read i = .ok (some v)) : (l.items read)[i]? = some (.ok v) := by
  unfold read? at h
  split at h
  · cases h
  · split at h
    · cases h
    · rename_i slot hslot
      split at h
      · cases h
      · rename_i hread
        cases h
        exact items_of_raw? hslot hread

/-- The view of a list whose data was filled with elements of one type shows them. -/
theorem Contents.Fills.shows {items : List Datum} {entries : List (Layout.Slot .list × Nat)}
    {data : List UInt8} {l : ListView} {b : Builtin}
    (h : (ofList items).Fills Datum.Form entries 0 data)
    (hopens : Layout.Opens .list l entries data) (hb : ∀ d ∈ items, d.builtin = b) : l.Shows b items := by
  obtain ⟨hdata, hcontinues⟩ := hopens.continues
  have hlength : l.length = items.length := by
    have hlists : l.length = (entries.map Prod.fst).length := hopens.lists
    rw [hlists, h.slots, length_slots_ofList]
  have helement (i : Nat) (hi : i < items.length) : l.read? b.read i = .ok (some items[i]) := by
    have hread := (h.readFrom hdata hcontinues).read?_ofList (List.getElem?_eq_getElem hi)
    rwa [hb _ (List.getElem_mem hi), Nat.zero_add] at hread
  have hstops : l.table.stops = entries.map Prod.snd := hopens.2
  -- beyond the last element nothing is read, neither by index nor in turn
  refine ⟨hlength, fun i => ?_, List.ext_getElem? fun i => ?_, fun hne => ?_, ?_⟩
  · rcases Nat.lt_or_ge i items.length with hi | hi
    · rw [helement i hi, List.getElem?_eq_getElem hi]
    · rw [List.getElem?_eq_none hi, ListView.read?, if_pos (by rwa [hlength])]
  · rcases Nat.lt_or_ge i items.length with hi | hi
    · rw [ListView.items_of_read? (helement i hi), List.getElem?_map, List.getElem?_eq_getElem hi]
      rfl
    · rw [List.getElem?_eq_none (by rwa [ListView.length_items, hlength]),
        List.getElem?_eq_none (by rwa [List.length_map])]
  · have hlen : 0 < l.table.stops.length := by
      rw [ListTable.length_stops]
      exact Nat.lt_of_lt_of_eq (List.length_pos_iff.2 hne) hlength.symm
    obtain ⟨stop, rest, hcons⟩ := List.exists_cons_of_length_pos hlen
    exact ⟨stop, by rw [ListTable.bounds?_eq, hcons]; rfl⟩
  · rw [hstops]
    exact h.stops.1.of_cons

/-- A whole list of values of one builtin type. -/
theorem wrote_of_writeList {b : Builtin} {items : List Datum} (hb : ∀ d ∈ items, d.builtin = b)
    (h : writeList Datum.write items buf = .ok n buf') :
    ∃ l, Wrote buf buf' (Value.tag (.list l)) n ∧ readList buf'.tail = .ok (l, n) ∧
      l.Shows b items := by
  obtain ⟨events, hbuild, hrecorded⟩ := build_of_writeList Datum.appends h
  obtain ⟨data, entries, e, hbytes, rfl, hclosed, hfills⟩ :=
    Run.exec_ok Datum.appends _ (Frame.holds_openAt .list buf) hbuild
  rw [hrecorded] at hfills
  obtain ⟨l, hform, hopens⟩ := hfills.opens hclosed
  have hchecks : Layout.Checks (validateWithin maxDepth) data .list 0 entries :=
    hfills.checks_iff.2
      ⟨Contents.seamless_ofList items, (Contents.height_ofList_le items).trans (by decide)⟩
  have hvalid : validate buf'.tail = .ok e.length := by
    rw [Buffer.tail_eq_of_bytes hbytes]
    exact (hfills.validateWithin_succ_iff hclosed buf.tail e.length).2 ⟨rfl, hchecks⟩
  refine ⟨l, hform.wrote hbytes hvalid, ?_, hfills.shows hopens hb⟩
  rw [Buffer.tail_eq_of_bytes hbytes]
  exact ListView.Form.read hform buf.tail

/-- **What is written is read back**, whatever was in the buffer before. If a value of a builtin
type is written with the size `n`, then `n` bytes were added to the buffer, they are valid, their
size is told, and the reader of the type reads the value off them. If a whole list of such values
is written, the same is true, and the view of the list shows all its elements. -/
theorem write_readBack (buf buf' : Buffer) (n : Nat) :
    (∀ d : Datum, d.write buf = .ok n buf' →
      Wrote buf buf' d.tag n ∧ d.builtin.read buf'.tail = .ok (d, n)) ∧
    ∀ (b : Builtin) (items : List Datum), (∀ d ∈ items, d.builtin = b) →
      writeList Datum.write items buf = .ok n buf' →
        ∃ l, Wrote buf buf' (Value.tag (.list l)) n ∧ readList buf'.tail = .ok (l, n) ∧
          l.Shows b items :=
  ⟨fun _ => Datum.wrote_of_write, fun _ _ => wrote_of_writeList⟩

/-- The list of the bytes 7 and 9. -/
def ListView.sample : ListView := ⟨ofBytes [7, 3, 9, 3], ⟨[0, 2, 0, 4], 4, false⟩⟩

/-- A text and a list of two bytes, each behind a byte that is the tag of a list. -/
theorem write_readBack_instances :
    (∃ buf, (Datum.string "hi").write (.ofBytes [70]) = .ok 5 buf ∧
      Wrote (.ofBytes [70]) buf .string 5 ∧
        Builtin.string.read buf.tail = .ok (.string "hi", 5)) ∧
    ∃ buf, writeList Datum.write [.byte 7, .byte 9] (.ofBytes [70]) = .ok 11 buf ∧
      Wrote (.ofBytes [70]) buf .list 11 ∧ readList buf.tail = .ok (.sample, 11) ∧
        ListView.sample.Shows .byte [.byte 7, .byte 9] := by
  have htext : (Datum.string "hi").write (.ofBytes [70]) =
      .ok 5 (.ofBytes [70, 104, 105, 0, 2, 60]) := by cbv
  have hlist : writeList Datum.write [.byte 7, .byte 9] (.ofBytes [70]) =
      .ok 11 (.ofBytes [70, 7, 3, 9, 3, 0, 2, 0, 4, 4, 4, 70]) := by cbv
  have hread : readList (ofBytes [70, 7, 3, 9, 3, 0, 2, 0, 4, 4, 4, 70]) =
      .ok (.sample, 11) := by rfl
  refine ⟨⟨_, htext, (write_readBack _ _ _).1 _ htext⟩, _, hlist, ?_⟩
  obtain ⟨l, hwrote, hl, hshows⟩ :=
    (write_readBack _ _ _).2 .byte _ (by simp [Datum.builtin]) hlist
  cases hread.symm.trans hl
  exact ⟨hwrote, hread, hshows⟩

end Backwire.Wire
