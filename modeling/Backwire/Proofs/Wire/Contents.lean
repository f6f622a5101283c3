import Backwire.Wire.Builder
import Backwire.Proofs.Wire.Parts
import Backwire.Proofs.Wire.Writing

/-!
# What a run records

`run.recorded enc f buf` lists what a builder records while a run is carried out: the values whose
writing succeeds, and the contents of the inner builders that are finished. The bytes of everything
else stay in the buffer, and the next value that is recorded has them in front of it.

The main result is `Run.exec_ok`: when a run is finished, the data between the start of its builder
and the table is filled by what was recorded, each value ending where its entry says, and the table
and its trailer close this data. It is proved for any kind of values, by induction on the run; what
each step does is said once, in `Frame.Holds.write_cases`, `Frame.Holds.finish_cases` and
`Frame.Holds.adopt_cases`.
-/

namespace Backwire.Wire

open Tail

/-- What was recorded by a builder, oldest first. With each value stands how many bytes lie in front
of it that belong to nothing recorded. -/
inductive Contents (α : Type) : Layout → Type where
  /-- Nothing more was recorded. -/
  | empty {k : Layout} : Contents α k
  /-- A value was written. -/
  | value {k : Layout} (slot : k.Slot) (gap : Nat) (a : α) (rest : Contents α k) : Contents α k
  /-- An inner builder was finished. -/
  | nested {k : Layout} (slot : k.Slot) (gap : Nat) {j : Layout} (inner : Contents α j)
      (rest : Contents α k) : Contents α k

variable {α : Type} {k : Layout}

/-- Where the last recorded value ends. -/
def Frame.last (f : Frame k) : Nat := (f.entries.getLast?.map Prod.snd).getD 0

/-- How many bytes were written behind the last recorded value. -/
def Frame.gap (f : Frame k) (buf : Buffer) : Nat := buf.size - (f.start + f.last)

/-- The values that are written before one is refused, in front of what is recorded later. -/
def Frame.recorded (enc : α → Writer Nat) (f : Frame k) (slot : k.Slot) :
    List α → Buffer → Contents α k → Contents α k
  | [], _, later => later
  | a :: values, buf, later =>
    match f.write enc slot a buf with
    | (.error _, _, _) => later
    | (.ok (), f', buf') => .value slot (f.gap buf) a (f'.recorded enc slot values buf' later)

/-- **What a builder records** while a run is carried out. -/
def Run.recorded (enc : α → Writer Nat) : {k : Layout} → Run α k → Frame k → Buffer → Contents α k
  | _, .finish, _, _ => .empty
  | _, .abandon, _, _ => .empty
  | _, .write slot values rest, f, buf =>
    match f.writeAll enc slot values buf with
    | (_, f', buf') => f.recorded enc slot values buf (rest.recorded enc f' buf')
  | _, .nest (j := j) slot inner rest, f, buf =>
    match inner.exec enc (.openAt j buf) buf with
    | (outcome, buf', _) =>
      match f.adopt slot outcome buf'.size with
      | (.finished (.ok _), f') =>
        .nested slot (f.gap buf) (inner.recorded enc (.openAt j buf) buf)
          (rest.recorded enc f' buf')
      | (_, f') => rest.recorded enc f' buf'

/-! ### What a finished builder leaves -/

/-- The data of a builder is closed by the table of its entries; those of a message are sorted. -/
def Layout.Closed : (k : Layout) → List (k.Slot × Nat) → List UInt8 → List UInt8 → Prop
  | .message, entries, data, e =>
    ∃ sorted : List Entry, sorted.Perm (entries.map fun (tag, stop) => ⟨tag, stop⟩) ∧
      (sorted.map Entry.tag).Pairwise (· < ·) ∧
        Sealed (.ofMessage (MessageTable.needsBig sorted)) data
          (MessageTable.encode (MessageTable.needsBig sorted) sorted) e
  | .list, entries, data, e =>
    Sealed (.ofList (ListTable.needsBig (entries.map Prod.snd))) data
      (ListTable.encode (ListTable.needsBig (entries.map Prod.snd)) (entries.map Prod.snd)) e

/-- **The data holds what was recorded**: each value ends where its entry says, in a form that `F`
allows, and stands as far behind the one before as its gap says; inner builders are closed. -/
def Contents.Fills (F : α → List UInt8 → Prop) :
    {k : Layout} → Contents α k → List (k.Slot × Nat) → Nat → List UInt8 → Prop
  | _, .empty, entries, _, _ => entries = []
  | _, .value slot gap a rest, entries, last, data =>
    ∃ front e later, entries = (slot, (front ++ e).length) :: later ∧ (front ++ e) <+: data ∧
      front.length = last + gap ∧ F a e ∧ rest.Fills F later (front ++ e).length data
  | _, .nested slot gap (j := j) inner rest, entries, last, data =>
    ∃ front e later, entries = (slot, (front ++ e).length) :: later ∧ (front ++ e) <+: data ∧
      front.length = last + gap ∧
        (∃ innerEntries innerData, j.Closed innerEntries innerData e ∧
          inner.Fills F innerEntries 0 innerData) ∧
      rest.Fills F later (front ++ e).length data

/-! ### Steps -/

@[simp] theorem Buffer.size_eq (buf : Buffer) : buf.bytes.length = buf.size := List.length_reverse

namespace Frame

@[simp] theorem last_openAt (buf : Buffer) : (openAt k buf).last = 0 := rfl

@[simp] theorem last_record (f : Frame k) (slot : k.Slot) (stop : Nat) :
    (f.record slot stop).last = stop := by
  simp [record, last]

/-- The builder was opened behind `base`, and `data` was written since. -/
structure Holds (f : Frame k) (buf : Buffer) (base data : List UInt8) : Prop where
  bytes : buf.bytes = base ++ data
  start : f.start = base.length
  last : f.last ≤ data.length

variable {f : Frame k} {buf buf' : Buffer} {base data : List UInt8} {slot : k.Slot}
  {enc : α → Writer Nat} {F : α → List UInt8 → Prop}

theorem holds_openAt (k : Layout) (buf : Buffer) : (openAt k buf).Holds buf buf.bytes [] :=
  ⟨(List.append_nil _).symm, buf.size_eq.symm, Nat.le_refl _⟩

theorem Holds.size (h : f.Holds buf base data) : buf.size = base.length + data.length := by
  rw [← buf.size_eq, h.bytes, List.length_append]

/-- A gap is what was written behind the last recorded value. -/
theorem Holds.gap (h : f.Holds buf base data) : f.last + f.gap buf = data.length := by
  have hlast := h.last
  rw [Frame.gap, h.size, h.start]
  omega

/-- Bytes that are not recorded. -/
theorem Holds.extend {more : List UInt8} (h : f.Holds buf base data)
    (hmore : buf'.bytes = buf.bytes ++ more) : f.Holds buf' base (data ++ more) := by
  refine ⟨?_, h.start, Nat.le_trans h.last (by simp)⟩
  rw [hmore, h.bytes, List.append_assoc]

theorem Holds.write (h : f.Holds buf base data) (more : List UInt8) :
    f.Holds (buf.write more) base (data ++ more) := h.extend (buf.bytes_write more)

/-- Bytes that are recorded. -/
theorem Holds.record (h : f.Holds buf base data) (slot : k.Slot) :
    (f.record slot data.length).Holds buf base data :=
  ⟨h.bytes, h.start, Nat.le_of_eq (f.last_record slot _)⟩

theorem relativeStop_eq_ok_iff {start stop n : Nat} :
    relativeStop start stop = .ok n ↔ n = stop - start ∧ stop - start < 0x100000000 := by
  rw [relativeStop, ite_eq_ok_iff]

/-- **Writing one value** adds a form of it and records where this ends, or adds something and
records nothing. -/
theorem Holds.write_cases (henc : ∀ a, Appends (enc a) (F a)) (slot : k.Slot) (a : α)
    (h : f.Holds buf base data) :
    (∃ e, F a e ∧ f.write enc slot a buf =
      (.ok (), f.record slot (data ++ e).length, buf.write e)) ∨
    ∃ err junk, f.write enc slot a buf = (.error err, f, buf.write junk) := by
  unfold Frame.write
  rcases henc a buf with ⟨e, he, hok⟩ | ⟨err, herr⟩
  · change enc a buf = .ok e.length (buf.write e) at hok
    rw [hok]
    dsimp only
    cases hstop : relativeStop f.start (buf.write e).size with
    | error err => exact .inr ⟨err, e, rfl⟩
    | ok stop =>
      have hstop' : stop = (data ++ e).length := by
        rw [(relativeStop_eq_ok_iff.1 hstop).1, (h.write e).size, h.start, Nat.add_sub_cancel_left]
      exact .inl ⟨e, he, by rw [hstop']⟩
  · rw [herr]
    exact .inr ⟨err, [], rfl⟩

/-- **Writing values in turn** fills the data with those that are recorded, whatever is recorded
later. -/
theorem Holds.writeAll_fills (henc : ∀ a, Appends (enc a) (F a)) (slot : k.Slot) (values : List α)
    (h : f.Holds buf base data) :
    ∃ result f' buf' more entries, f.writeAll enc slot values buf = (result, f', buf') ∧
      f'.Holds buf' base (data ++ more) ∧ f'.entries = f.entries ++ entries ∧
      ∀ later laterEntries full, (data ++ more) <+: full → later.Fills F laterEntries f'.last full →
        (f.recorded enc slot values buf later).Fills F (entries ++ laterEntries) f.last full := by
  induction values generalizing f buf data with
  | nil =>
    refine ⟨.ok (), f, buf, [], [], rfl, ?_, (List.append_nil _).symm, fun _ _ _ _ hlater => hlater⟩
    rwa [List.append_nil]
  | cons a values ih =>
    rcases h.write_cases henc slot a with ⟨e, he, hwrite⟩ | ⟨err, junk, hwrite⟩
    · obtain ⟨result, f', buf', more, entries, hall, hholds, hentries, hfills⟩ :=
        ih ((h.write e).record slot)
      refine ⟨result, f', buf', e ++ more, (slot, (data ++ e).length) :: entries, ?_, ?_, ?_, ?_⟩
      · rw [writeAll, hwrite]
        exact hall
      · rwa [← List.append_assoc]
      · rw [hentries, Frame.record, List.append_assoc]
        rfl
      · intro later laterEntries full hfull hlater
        rw [← List.append_assoc] at hfull
        rw [Frame.recorded, hwrite]
        have := hfills later laterEntries full hfull hlater
        rw [last_record] at this
        exact ⟨data, e, _, rfl, (List.prefix_append _ _).trans hfull, h.gap.symm, he, this⟩
    · refine ⟨.error err, f, buf.write junk, junk, [], ?_, h.write junk,
        (List.append_nil _).symm, ?_⟩
      · rw [writeAll, hwrite]
      · intro later laterEntries full _ hlater
        rw [Frame.recorded, hwrite]
        exact hlater

/-- Entries that ascend, none of whose tags equals the next one, ascend strictly. -/
theorem ascending_of_firstRepeated {entries : List Entry}
    (hasc : entries.Pairwise fun a b => a.tag ≤ b.tag) (h : firstRepeated entries = none) :
    (entries.map Entry.tag).Pairwise (· < ·) := by
  induction entries with
  | nil => exact List.Pairwise.nil
  | cons a rest ih =>
    cases rest with
    | nil => exact List.pairwise_singleton _ _
    | cons b rest =>
      unfold firstRepeated at h
      split at h
      · cases h
      · rename_i hne
        have hrest := ih hasc.of_cons h
        have hab : a.tag < b.tag :=
          UInt16.lt_of_le_of_ne (List.rel_of_pairwise_cons hasc List.mem_cons_self) hne
        refine List.pairwise_cons.2 ⟨List.forall_mem_cons.2 ⟨hab, fun t ht => ?_⟩, hrest⟩
        exact UInt16.lt_trans hab (List.rel_of_pairwise_cons hrest ht)

theorem sorted_ascending (f : Frame .message) : f.sorted.Pairwise fun a b => a.tag ≤ b.tag := by
  have h := @List.pairwise_mergeSort _ (fun a b : Entry => decide (a.tag ≤ b.tag))
    (fun a b c hab hbc => by
      rw [decide_eq_true_eq] at *
      exact UInt16.le_trans hab hbc)
    (fun a b => by
      rw [Bool.or_eq_true, decide_eq_true_eq, decide_eq_true_eq]
      exact UInt16.le_total a.tag b.tag)
    (f.entries.map fun (tag, stop) => Entry.mk tag stop)
  exact h.imp of_decide_eq_true

/-- Closing data and returning its size with that of the trailer. -/
theorem close_cases (buf : Buffer) (data table : List UInt8) (tag : Tag) :
    (∃ trailer, Sealed tag data table (data ++ trailer) ∧
      (do let n ← writeTable data.length table tag; return data.length + n : Writer Nat) buf =
        .ok (data ++ trailer).length (buf.write trailer)) ∨
    ∃ err, (do let n ← writeTable data.length table tag; return data.length + n : Writer Nat) buf =
      .error err buf := by
  rcases appends_writeTable data table tag buf with ⟨trailer, hsealed, hok⟩ | ⟨err, herr⟩
  · refine .inl ⟨trailer, hsealed, ?_⟩
    simp only [bind, EStateM.bind, hok, List.length_append]
    rfl
  · refine .inr ⟨err, ?_⟩
    simp only [bind, EStateM.bind, herr]

/-- **Finishing a builder** closes its data, or leaves what was there before it was opened. -/
theorem Holds.finish_cases (h : f.Holds buf base data) :
    (∃ trailer, k.Closed f.entries data (data ++ trailer) ∧
      f.finish buf = .ok (data ++ trailer).length (buf.write trailer)) ∨
    ∃ err buf' data', f.finish buf = .error err buf' ∧ buf'.bytes = base ++ data' := by
  have hsize : buf.size - f.start = data.length := by
    rw [h.size, h.start, Nat.add_sub_cancel_left]
  cases k with
  | list =>
    have hfinish : f.finish buf = (do
        let n ← writeListTable (buf.size - f.start) (f.entries.map Prod.snd)
        return buf.size - f.start + n : Writer Nat) buf := rfl
    rw [hfinish, hsize]
    rcases close_cases buf data _ _ with hok | ⟨err, herr⟩
    · exact .inl hok
    · exact .inr ⟨err, buf, data, herr, h.bytes⟩
  | message =>
    cases hrepeated : firstRepeated f.sorted with
    | some tag =>
      have hfinish : f.finish buf = .error (.duplicateTag tag) (buf.truncate f.start) := by
        simp only [finish, hrepeated]
        rfl
      refine .inr ⟨_, _, [], hfinish, ?_⟩
      rw [Buffer.bytes_truncate, h.bytes, h.start, List.take_left' rfl, List.append_nil]
    | none =>
      have hfinish : f.finish buf = (do
          let n ← writeMessageTable (buf.size - f.start) f.sorted
          return buf.size - f.start + n : Writer Nat) buf := by
        simp only [finish, hrepeated]
        rfl
      rw [hfinish, hsize]
      rcases close_cases buf data _ _ with ⟨trailer, hsealed, hok⟩ | ⟨err, herr⟩
      · exact .inl ⟨trailer, ⟨f.sorted, List.mergeSort_perm _ _,
          ascending_of_firstRepeated f.sorted_ascending hrepeated, hsealed⟩, hok⟩
      · exact .inr ⟨err, buf, data, herr, h.bytes⟩

/-- **Closing an inner builder** records it where the buffer now ends, if it was finished and this
can be said; otherwise nothing is recorded. -/
theorem Holds.adopt_cases (h : f.Holds buf base data) (slot : k.Slot) (outcome : Outcome) :
    (∃ n, outcome = .finished (.ok n) ∧
      f.adopt slot outcome buf.size = (.finished (.ok n), f.record slot data.length)) ∨
    ∃ outcome', (∀ n, outcome' ≠ .finished (.ok n)) ∧
      f.adopt slot outcome buf.size = (outcome', f) := by
  cases outcome with
  | abandoned count => exact .inr ⟨.abandoned count, nofun, rfl⟩
  | finished result =>
    cases result with
    | error err => exact .inr ⟨.finished (.error err), nofun, rfl⟩
    | ok n =>
      cases hstop : relativeStop f.start buf.size with
      | error err => exact .inr ⟨.finished (.error err), nofun, by rw [adopt, hstop]⟩
      | ok stop =>
        have hlen : stop = data.length := by
          rw [(relativeStop_eq_ok_iff.1 hstop).1, h.size, h.start, Nat.add_sub_cancel_left]
        exact .inl ⟨n, rfl, by rw [adopt, hstop, hlen]⟩

end Frame

/-! ### Runs -/

namespace Run

variable {f f' : Frame k} {buf buf₁ buf₂ : Buffer} {base data : List UInt8} {enc : α → Writer Nat}
  {F : α → List UInt8 → Prop} {slot : k.Slot} {rest : Run α k} {last : Outcome}
  {events : List Event}

theorem exec_write {values : List α} {result : Except WireError Unit}
    (hall : f.writeAll enc slot values buf = (result, f', buf₁))
    (hrest : rest.exec enc f' buf₁ = (last, buf₂, events)) :
    (write slot values rest).exec enc f buf =
      (last, buf₂, .wrote result f'.entries.length :: events) := by
  simp only [exec, hall, hrest]

theorem exec_nest {j : Layout} {inner : Run α j} {outcome outcome' : Outcome}
    {innerEvents : List Event}
    (hinner : inner.exec enc (.openAt j buf) buf = (outcome, buf₁, innerEvents))
    (hadopt : f.adopt slot outcome buf₁.size = (outcome', f'))
    (hrest : rest.exec enc f' buf₁ = (last, buf₂, events)) :
    (nest slot inner rest).exec enc f buf =
      (last, buf₂, .opened j :: (innerEvents ++ .closed outcome' f'.entries.length :: events)) := by
  simp only [exec, hinner, hadopt, hrest]

theorem recorded_write {values : List α} {result : Except WireError Unit}
    (hall : f.writeAll enc slot values buf = (result, f', buf₁)) :
    (write slot values rest).recorded enc f buf =
      f.recorded enc slot values buf (rest.recorded enc f' buf₁) := by
  simp only [recorded, hall]

theorem recorded_nest {j : Layout} {inner : Run α j} {outcome : Outcome} {innerEvents : List Event}
    {n : Nat} (hinner : inner.exec enc (.openAt j buf) buf = (outcome, buf₁, innerEvents))
    (hadopt : f.adopt slot outcome buf₁.size = (.finished (.ok n), f')) :
    (nest slot inner rest).recorded enc f buf =
      .nested slot (f.gap buf) (inner.recorded enc (.openAt j buf) buf)
        (rest.recorded enc f' buf₁) := by
  simp only [recorded, hinner, hadopt]

theorem recorded_nest_of_ne {j : Layout} {inner : Run α j} {outcome outcome' : Outcome}
    {innerEvents : List Event}
    (hinner : inner.exec enc (.openAt j buf) buf = (outcome, buf₁, innerEvents))
    (hadopt : f.adopt slot outcome buf₁.size = (outcome', f'))
    (hne : ∀ n, outcome' ≠ .finished (.ok n)) :
    (nest slot inner rest).recorded enc f buf = rest.recorded enc f' buf₁ := by
  simp only [recorded, hinner, hadopt]

/-- **A run never touches what was there before its builder was opened**, however it ends. -/
theorem exec_keeps (henc : ∀ a, Appends (enc a) (F a)) (run : Run α k)
    (h : f.Holds buf base data) :
    ∃ outcome buf' events data', run.exec enc f buf = (outcome, buf', events) ∧
      buf'.bytes = base ++ data' := by
  induction run generalizing buf base data with
  | finish =>
    rcases h.finish_cases with ⟨trailer, -, hfinish⟩ | ⟨err, buf', data', hfinish, hbytes⟩
    · exact ⟨_, _, _, data ++ trailer, by rw [exec, hfinish], (h.write trailer).bytes⟩
    · exact ⟨_, _, _, data', by rw [exec, hfinish], hbytes⟩
  | abandon => exact ⟨_, buf, _, data, rfl, h.bytes⟩
  | write slot values rest ih =>
    obtain ⟨result, f', buf₁, more, entries, hall, hholds, -, -⟩ :=
      h.writeAll_fills henc slot values
    obtain ⟨last, buf₂, events, data', hrest, hbytes⟩ := ih hholds
    exact ⟨last, buf₂, _, data', exec_write hall hrest, hbytes⟩
  | nest slot inner rest ihInner ih =>
    obtain ⟨outcome, buf₁, events, junk, hinner, hjunk⟩ := ihInner (Frame.holds_openAt _ buf)
    have hholds := h.extend hjunk
    rcases hholds.adopt_cases slot outcome with ⟨n, -, hadopt⟩ | ⟨outcome', -, hadopt⟩
    · obtain ⟨last, buf₂, events', data', hrest, hbytes⟩ := ih (hholds.record slot)
      exact ⟨last, buf₂, _, data', exec_nest hinner hadopt hrest, hbytes⟩
    · obtain ⟨last, buf₂, events', data', hrest, hbytes⟩ := ih hholds
      exact ⟨last, buf₂, _, data', exec_nest hinner hadopt hrest, hbytes⟩

/-- **A run that is finished** closes the data behind its start, and what it records fills this
data. -/
theorem exec_ok (henc : ∀ a, Appends (enc a) (F a)) (run : Run α k) (h : f.Holds buf base data)
    {n : Nat} {buf' : Buffer} {events : List Event}
    (hrun : run.exec enc f buf = (.finished (.ok n), buf', events)) :
    ∃ more entries e, buf'.bytes = base ++ e ∧ e.length = n ∧
      k.Closed (f.entries ++ entries) (data ++ more) e ∧
      (run.recorded enc f buf).Fills F entries f.last (data ++ more) := by
  induction run generalizing buf base data n buf' events with
  | finish =>
    rcases h.finish_cases with ⟨trailer, hclosed, hfinish⟩ | ⟨err, buf₁, data', hfinish, hbytes⟩
    · rw [exec, hfinish] at hrun
      cases hrun
      refine ⟨[], [], data ++ trailer, (h.write trailer).bytes, rfl, ?_, rfl⟩
      rwa [List.append_nil, List.append_nil]
    · rw [exec, hfinish] at hrun
      cases hrun
  | abandon => cases hrun
  | write slot values rest ih =>
    obtain ⟨result, f', buf₁, more, entries, hall, hholds, hentries, hfills⟩ :=
      h.writeAll_fills henc slot values
    obtain ⟨last, buf₂, events', data', hrest, -⟩ := exec_keeps henc rest hholds
    rw [exec_write hall hrest] at hrun
    cases hrun
    obtain ⟨more', entries', e, hbytes, hlen, hclosed, hrec⟩ := ih hholds hrest
    rw [hentries, List.append_assoc, List.append_assoc] at hclosed
    refine ⟨more ++ more', entries ++ entries', e, hbytes, hlen, hclosed, ?_⟩
    rw [recorded_write hall, ← List.append_assoc]
    exact hfills _ _ _ (List.prefix_append _ _) hrec
  | nest slot inner rest ihInner ih =>
    obtain ⟨outcome, buf₁, innerEvents, junk, hinner, hjunk⟩ :=
      exec_keeps henc inner (Frame.holds_openAt _ buf)
    have hholds := h.extend hjunk
    rcases hholds.adopt_cases slot outcome with ⟨m, rfl, hadopt⟩ | ⟨outcome', hne, hadopt⟩
    · -- the inner builder is recorded, and its own run has filled its data
      obtain ⟨innerData, innerEntries, e, hbytes, -, hinnerClosed, hinnerRec⟩ :=
        ihInner (Frame.holds_openAt _ buf) hinner
      obtain rfl : e = junk := List.append_cancel_left (hbytes.symm.trans hjunk)
      have hholds' := hholds.record slot
      obtain ⟨last, buf₂, events', data', hrest, -⟩ := exec_keeps henc rest hholds'
      rw [exec_nest hinner hadopt hrest] at hrun
      cases hrun
      obtain ⟨more', entries', e', hbytes', hlen, hclosed, hrec⟩ := ih hholds' hrest
      rw [Frame.last_record] at hrec
      rw [Frame.record, List.append_assoc, List.append_assoc] at hclosed
      refine ⟨e ++ more', (slot, (data ++ e).length) :: entries', e', hbytes', hlen, hclosed, ?_⟩
      rw [recorded_nest hinner hadopt, ← List.append_assoc]
      exact ⟨data, e, entries', rfl, List.prefix_append _ _, h.gap.symm,
        ⟨innerEntries, innerData, hinnerClosed, hinnerRec⟩, hrec⟩
    · obtain ⟨last, buf₂, events', data', hrest, -⟩ := exec_keeps henc rest hholds
      rw [exec_nest hinner hadopt hrest] at hrun
      cases hrun
      obtain ⟨more', entries', e, hbytes, hlen, hclosed, hrec⟩ := ih hholds hrest
      rw [List.append_assoc] at hclosed hrec
      refine ⟨junk ++ more', entries', e, hbytes, hlen, hclosed, ?_⟩
      rwa [recorded_nest_of_ne hinner hadopt hne]

end Run

end Backwire.Wire
