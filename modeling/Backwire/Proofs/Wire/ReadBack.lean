import Backwire.Proofs.Wire.Contents

/-!
# Reading back what was built

A builder that was finished is read by the view of its kind, and the view shows what was recorded,
no more and no less. This holds of every run over values of the builtin types: what was left behind
by inner builders that were not recorded is never seen.
-/

namespace Backwire.Wire

open Tail

/-! ### Views of either kind -/

namespace Layout

/-- The view of what a builder makes. -/
abbrev View : Layout → Type
  | message => MessageView
  | list => ListView

/-- The reader of what a builder makes. -/
def read : (k : Layout) → Reader k.View
  | message => readMessage
  | list => readList

/-- A view as a value of any kind. -/
def value : (k : Layout) → k.View → Value
  | message, m => .message m
  | list, l => .list l

/-- The data of a view. -/
def data : (k : Layout) → k.View → Tail
  | message, m => m.data
  | list, l => l.data

/-- Reads a value that was placed: by its tag in a message, by its index in a list. -/
def get? {α : Type} : (k : Layout) → k.View → Reader α → k.Slot → Nat → Except WireError (Option α)
  | message, m, read, tag, _ => m.read? read tag
  | list, l, read, _, i => l.read? read i

/-- The bytes from which it is read. -/
def part? : (k : Layout) → k.View → k.Slot → Nat → Option Tail
  | message, m, tag, _ => m.field? tag
  | list, l, _, i => l.raw? i

/-- **The view lists exactly these places**: the tags in ascending order, and nothing under any
other; or as many elements. -/
def Lists : (k : Layout) → k.View → List k.Slot → Prop
  | message, m, tags => m.table.tags.Pairwise (· < ·) ∧ m.table.tags.Perm tags ∧
      ∀ tag ∉ tags, ∀ {α : Type} (read : Reader α), m.read? read tag = .ok none
  | list, l, slots => l.length = slots.length

end Layout

variable {α : Type} {k : Layout}

/-- Where values were recorded. -/
def Contents.slots : {k : Layout} → Contents α k → List k.Slot
  | _, .empty => []
  | _, .value slot _ _ rest => slot :: rest.slots
  | _, .nested slot _ _ rest => slot :: rest.slots

/-- Every value is read where it was recorded, by the reader of its type, and inner builders by
views that show what they recorded. The first value here has the index `i`. -/
def Contents.ReadFrom : {k : Layout} → Contents Datum k → k.View → Nat → Prop
  | _, .empty, _, _ => True
  | k, .value slot _ d rest, view, i =>
    k.get? view d.builtin.read slot i = .ok (some d) ∧ rest.ReadFrom view (i + 1)
  | k, .nested slot _ (j := j) inner rest, view, i =>
    (∃ w, k.get? view j.read slot i = .ok (some w) ∧ j.Lists w inner.slots ∧ inner.ReadFrom w 0) ∧
      rest.ReadFrom view (i + 1)

/-- **The view shows exactly what was recorded.** -/
def Contents.ShownBy (c : Contents Datum k) (view : k.View) : Prop :=
  k.Lists view c.slots ∧ c.ReadFrom view 0

/-! ### From the entries of a builder to its view -/

/-- The data and the table of a view are those of a builder. -/
def Layout.Opens : (k : Layout) → k.View → List (k.Slot × Nat) → List UInt8 → Prop
  | message, m, entries, data => m.data = ofBytes data ∧ m.table.tags.Pairwise (· < ·) ∧
      m.table.entries.Perm (entries.map fun (tag, stop) => ⟨tag, stop⟩)
  | list, l, entries, data => l.data = ofBytes data ∧ l.table.stops = entries.map Prod.snd

theorem Sealed.length_le {tag : Tag} {data table e : List UInt8} (h : Sealed tag data table e) :
    data.length ≤ maxSize := by
  obtain ⟨g, g', rfl, -, -, hmax⟩ := h
  simp only [List.length_append] at hmax
  omega

theorem Layout.read_of_form {view : k.View} {e : List UInt8} (h : (k.value view).Form e)
    (rest : Tail) : k.read (ofBytes e ++ rest) = .ok (view, e.length) := by
  cases k with
  | message => exact MessageView.Form.read h rest
  | list => exact ListView.Form.read h rest

/-- What a finished builder left is a form of a view of its data and its entries. -/
theorem Layout.Closed.opens {entries : List (k.Slot × Nat)} {data e : List UInt8}
    (h : k.Closed entries data e) (hasc : (entries.map Prod.snd).Pairwise (· ≤ ·))
    (hinside : ∀ s ∈ entries.map Prod.snd, s ≤ data.length) :
    ∃ view, (k.value view).Form e ∧ k.Opens view entries data := by
  cases k with
  | list =>
    have hlen := Sealed.length_le h
    have hfits := ListTable.fits_needsBig hasc fun s hs => by
      have := hinside s hs
      unfold maxSize at hlen
      omega
    exact ⟨_, ListView.form_make h, rfl, ListView.stops_make hfits data⟩
  | message =>
    obtain ⟨sorted, hperm, hasc, h⟩ := h
    have hlen := h.length_le
    have hfits : MessageTable.Fits _ sorted := MessageTable.fits_needsBig fun s hs => by
      obtain ⟨p, hp, rfl⟩ := List.mem_map.1 (hperm.mem_iff.1 hs)
      have := hinside p.2 (List.mem_map_of_mem hp)
      unfold maxSize at hlen
      change p.2 < _
      omega
    refine ⟨_, MessageView.form_make h, rfl, ?_, ?_⟩
    · rwa [MessageTable.tags, MessageView.entries_make hfits]
    · rwa [MessageView.entries_make hfits]

/-- The entries of the table from the index `i` on are those given, of which the first value starts
behind `last`. -/
def Layout.Continues : (k : Layout) → k.View → Nat → Nat → List (k.Slot × Nat) → Prop
  | message, m, _, _, entries => m.table.tags.Pairwise (· < ·) ∧
      ∀ p ∈ entries, ⟨p.1, p.2⟩ ∈ m.table.entries
  | list, l, i, last, entries =>
    (ListTable.extents 0 l.table.stops).drop i = ListTable.extents last (entries.map Prod.snd)

/-- The bytes of the next value end in the bytes that were recorded for it. -/
theorem Layout.Continues.part? {view : k.View} {i last : Nat} {slot : k.Slot}
    {front e data : List UInt8} {later : List (k.Slot × Nat)}
    (h : k.Continues view i last ((slot, (front ++ e).length) :: later))
    (hdata : k.data view = ofBytes data) (hpre : (front ++ e) <+: data)
    (hlast : last ≤ front.length) :
    ∃ rest, k.part? view slot i = some (ofBytes e ++ rest) := by
  have htake : data.take (front ++ e).length = front ++ e :=
    (List.prefix_iff_eq_take.1 hpre).symm
  cases k with
  | message =>
    refine ⟨ofBytes front, (MessageView.field?_eq_some_iff h.1).2
      ⟨_, h.2 _ List.mem_cons_self, upTo_eq_some_iff.2 ⟨?_, ?_⟩⟩⟩
    · change _ ≤ (Layout.data .message view).length
      rw [hdata, length_ofBytes]
      exact hpre.length_le
    · change _ = ofBytes ((toBytes (Layout.data .message view)).take _)
      rw [hdata, toBytes_ofBytes, htake, ofBytes_append]
  | list =>
    have hi : (ListTable.extents 0 view.table.stops)[i]? = some (last, (front ++ e).length) := by
      rw [← List.head?_drop, h]
      rfl
    refine ⟨ofBytes (front.drop last), ListView.raw?_eq_some_iff.2
      ⟨_, hi, slot_eq_some_iff.2 ⟨?_, ?_, ?_⟩⟩⟩
    · simp; omega
    · change _ ≤ (Layout.data .list view).length
      rw [hdata, length_ofBytes]
      exact hpre.length_le
    · change _ = ofBytes (((toBytes (Layout.data .list view)).take _).drop _)
      rw [hdata, toBytes_ofBytes, htake, List.drop_append_of_le_length hlast, ofBytes_append]

theorem Layout.Continues.tail {view : k.View} {i last stop : Nat} {slot : k.Slot}
    {later : List (k.Slot × Nat)} (h : k.Continues view i last ((slot, stop) :: later)) :
    k.Continues view (i + 1) stop later := by
  cases k with
  | message => exact ⟨h.1, fun p hp => h.2 p (List.mem_cons_of_mem _ hp)⟩
  | list =>
    change List.drop (i + 1) _ = _
    rw [← List.drop_drop, h]
    rfl

/-- A value is read from its bytes. -/
theorem Layout.get?_of_part? {α : Type} {view : k.View} {slot : k.Slot} {i n : Nat} {part : Tail}
    {read : Reader α} {v : α} (h : k.part? view slot i = some part)
    (hread : read part = .ok (v, n)) :
    k.get? view read slot i = .ok (some v) := by
  cases k with
  | message => exact MessageView.read?_of_field? h hread
  | list => exact ListView.read?_of_raw? h hread

/-- A view that opens the data of a builder continues with all of its entries. -/
theorem Layout.Opens.continues {view : k.View} {entries : List (k.Slot × Nat)} {data : List UInt8}
    (h : k.Opens view entries data) :
    k.data view = ofBytes data ∧ k.Continues view 0 0 entries := by
  cases k with
  | message =>
    obtain ⟨hdata, hasc, hperm⟩ := h
    exact ⟨hdata, hasc, fun p hp => hperm.mem_iff.2 (List.mem_map_of_mem hp)⟩
  | list =>
    obtain ⟨hdata, hstops⟩ := h
    refine ⟨hdata, ?_⟩
    change List.drop 0 _ = _
    rw [hstops, List.drop_zero]

/-- It lists exactly the places of these entries. -/
theorem Layout.Opens.lists {view : k.View} {entries : List (k.Slot × Nat)} {data : List UInt8}
    (h : k.Opens view entries data) : k.Lists view (entries.map Prod.fst) := by
  cases k with
  | message =>
    obtain ⟨-, hasc, hperm⟩ := h
    have htags : view.table.tags.Perm (entries.map Prod.fst) := by
      have := hperm.map Entry.tag
      rwa [List.map_map] at this
    exact ⟨hasc, htags, fun tag htag _ read =>
      MessageView.read?_of_not_mem hasc fun hmem => htag (htags.mem_iff.1 hmem)⟩
  | list =>
    obtain ⟨-, hstops⟩ := h
    change view.table.length = _
    rw [← ListTable.length_stops, hstops, List.length_map, List.length_map]

/-! ### From what was recorded to the view -/

namespace Contents

variable {F : α → List UInt8 → Prop} {c : Contents α k} {entries : List (k.Slot × Nat)} {last : Nat}
  {data : List UInt8}

/-- The entries are those of the recorded values. -/
theorem Fills.slots (h : c.Fills F entries last data) : entries.map Prod.fst = c.slots := by
  induction c generalizing last with
  | empty => rw [show entries = [] from h]; rfl
  | value slot gap a rest ih =>
    obtain ⟨front, e, later, rfl, -, -, -, h⟩ := h
    rw [List.map_cons, ih h, Contents.slots]
  | nested slot gap inner rest ihInner ih =>
    obtain ⟨front, e, later, rfl, -, -, -, h⟩ := h
    rw [List.map_cons, ih h, Contents.slots]

/-- The offset of one more value in front of those that ascend within the data. -/
theorem stops_cons {last gap : Nat} {front e : List UInt8} {stops : List Nat}
    (hpre : (front ++ e) <+: data) (hgap : front.length = last + gap)
    (h : ((front ++ e).length :: stops).Pairwise (· ≤ ·) ∧ ∀ s ∈ stops, s ≤ data.length) :
    (last :: (front ++ e).length :: stops).Pairwise (· ≤ ·) ∧
      ∀ s ∈ (front ++ e).length :: stops, s ≤ data.length := by
  have hle : last ≤ (front ++ e).length := by
    rw [List.length_append]
    omega
  refine ⟨List.pairwise_cons.2 ⟨List.forall_mem_cons.2 ⟨hle, fun s hs => ?_⟩, h.1⟩,
    List.forall_mem_cons.2 ⟨hpre.length_le, h.2⟩⟩
  exact Nat.le_trans hle (List.rel_of_pairwise_cons h.1 hs)

/-- Their offsets ascend within the data. -/
theorem Fills.stops (h : c.Fills F entries last data) :
    (last :: entries.map Prod.snd).Pairwise (· ≤ ·) ∧
      ∀ s ∈ entries.map Prod.snd, s ≤ data.length := by
  induction c generalizing last with
  | empty => rw [show entries = [] from h]; simp
  | value slot gap a rest ih =>
    obtain ⟨front, e, later, rfl, hpre, hgap, -, h⟩ := h
    exact stops_cons hpre hgap (ih h)
  | nested slot gap inner rest ihInner ih =>
    obtain ⟨front, e, later, rfl, hpre, hgap, -, h⟩ := h
    exact stops_cons hpre hgap (ih h)

/-- What fills closed data belongs to a view of this data. -/
theorem Fills.opens {e : List UInt8} (h : c.Fills F entries 0 data)
    (hclosed : k.Closed entries data e) :
    ∃ view, (k.value view).Form e ∧ k.Opens view entries data :=
  hclosed.opens h.stops.1.of_cons h.stops.2

/-- What fills the data of a view is read from it. -/
theorem Fills.readFrom {c : Contents Datum k} {view : k.View} {i : Nat}
    (h : c.Fills Datum.Form entries last data) (hdata : k.data view = ofBytes data)
    (hview : k.Continues view i last entries) : c.ReadFrom view i := by
  induction c generalizing last i data with
  | empty => trivial
  | value slot gap d rest ih =>
    obtain ⟨front, e, later, rfl, hpre, hgap, he, h⟩ := h
    obtain ⟨before, hpart⟩ := hview.part? hdata hpre (by omega)
    exact ⟨Layout.get?_of_part? hpart (he.read before), ih h hdata hview.tail⟩
  | nested slot gap inner rest ihInner ih =>
    obtain ⟨front, e, later, rfl, hpre, hgap, ⟨innerEntries, innerData, hclosed, hinner⟩, h⟩ := h
    obtain ⟨before, hpart⟩ := hview.part? hdata hpre (by omega)
    obtain ⟨w, hform, hopens⟩ := hinner.opens hclosed
    obtain ⟨hinnerData, hcontinues⟩ := hopens.continues
    refine ⟨⟨w, Layout.get?_of_part? hpart (Layout.read_of_form hform before), ?_,
      ihInner hinner hinnerData hcontinues⟩, ih h hdata hview.tail⟩
    rw [← hinner.slots]
    exact hopens.lists

/-- What fills closed data is shown by the view that is read. -/
theorem Fills.shown {c : Contents Datum k} {e : List UInt8} (h : c.Fills Datum.Form entries 0 data)
    (hclosed : k.Closed entries data e) (rest : Tail) :
    ∃ view, k.read (ofBytes e ++ rest) = .ok (view, e.length) ∧ c.ShownBy view := by
  obtain ⟨view, hform, hopens⟩ := h.opens hclosed
  obtain ⟨hdata, hcontinues⟩ := hopens.continues
  exact ⟨view, Layout.read_of_form hform rest, h.slots ▸ hopens.lists, h.readFrom hdata hcontinues⟩

end Contents

/-- **A finished builder is read back as what it recorded.** Whatever was in the buffer and whatever
is done with the builder and those inside it: if in the end it is finished with the size `n`, then
`n` bytes were added to the buffer, its view reads these `n` bytes off the end, and the view shows
exactly what was recorded. -/
theorem build_readBack {run : Run Datum k} {buf buf' : Buffer} {n : Nat} {events : List Event}
    (h : run.build Datum.write buf = (.finished (.ok n), buf', events)) :
    (∃ e, buf'.bytes = buf.bytes ++ e ∧ e.length = n) ∧
      ∃ view, k.read buf'.tail = .ok (view, n) ∧
        (run.recorded Datum.write (.openAt k buf) buf).ShownBy view := by
  obtain ⟨data, entries, e, hbytes, hlen, hclosed, hfills⟩ :=
    Run.exec_ok Datum.appends run (Frame.holds_openAt k buf) h
  refine ⟨⟨e, hbytes, hlen⟩, ?_⟩
  obtain ⟨view, hread, hshown⟩ := hfills.shown hclosed buf.tail
  exact ⟨view, by rw [Buffer.tail_eq_of_bytes hbytes, hread, hlen], hshown⟩

/-- A message of a number and a list, in which an inner message is abandoned and two values
follow. -/
def Run.sample : Run Datum .message :=
  .write (k := .message) 300 [.byte 7] (.nest (k := .message) 2 (j := .list)
    (.nest () (j := .message) (.write (k := .message) 1 [.byte 9] .abandon)
      (.write () [.bool true, .byte 5] .finish)) .finish)

theorem build_readBack_sample :
    ∃ (buf : Buffer) (events : List Event) (view : MessageView),
      Run.sample.build Datum.write {} = (.finished (.ok 29), buf, events) ∧
      readMessage buf.tail = .ok (view, 29) ∧
      (Run.sample.recorded Datum.write (.openAt .message {}) {}).ShownBy view ∧
      Run.sample.recorded Datum.write (.openAt .message {}) {} =
        .value (k := .message) 300 0 (.byte 7) (.nested (k := .message) 2 0 (j := .list)
          (.value () 2 (.bool true) (.value () 0 (.byte 5) .empty)) .empty) := by
  have hrun : (Run.sample.build Datum.write {}).1 = .finished (.ok 29) := by cbv
  have h : Run.sample.build Datum.write {} =
      (.finished (.ok 29), (Run.sample.build Datum.write {}).2) := by rw [← hrun]
  obtain ⟨-, view, hread, hshown⟩ := build_readBack h
  exact ⟨_, _, view, h, hread, hshown, by cbv⟩

end Backwire.Wire
