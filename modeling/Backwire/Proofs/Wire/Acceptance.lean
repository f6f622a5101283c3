import Backwire.Proofs.Wire.ReadBack

/-!
# Validation of what was built

Validation wants every element of a list to fill its slot, which begins where the element before it
ends. An inner builder that is not recorded leaves its bytes in the buffer, and if a list then
records an element, its slot holds them too: the list is finished, it reads back as it was recorded,
and validation refuses it. In a message nothing depends on what stands in front of a field.

The main result says that this, and nesting too deep, is all that can be refused.
-/

namespace Backwire.Wire

open Tail

variable {α : Type} {k : Layout}

/-- **No element of a list has bytes in front of it that belong to nothing recorded**, here and in
all inner builders. -/
def Contents.Seamless : {k : Layout} → Contents α k → Prop
  | _, .empty => True
  | k, .value _ gap _ rest => (k = .list → gap = 0) ∧ rest.Seamless
  | k, .nested _ gap inner rest => (k = .list → gap = 0) ∧ inner.Seamless ∧ rest.Seamless

/-- How many levels below the builder its values lie. -/
def Contents.height : {k : Layout} → Contents α k → Nat
  | _, .empty => 0
  | _, .value _ _ _ rest => max 1 rest.height
  | _, .nested _ _ inner rest => max (inner.height + 1) rest.height

/-- What validation asks of the values that end where the entries say, the first one starting behind
`last`. -/
def Layout.Checks (check : Tail → Except WireError Nat) (data : List UInt8) :
    (k : Layout) → Nat → List (k.Slot × Nat) → Prop
  | message, _, entries =>
    ∀ p ∈ entries, ∃ part n, (ofBytes data).upTo p.2 = some part ∧ check part = .ok n
  | list, last, entries => ∀ p ∈ ListTable.extents last (entries.map Prod.snd),
      ∃ slot, (ofBytes data).slot p.1 p.2 = some slot ∧ check slot = .ok slot.length

variable {check : Tail → Except WireError Nat} {data : List UInt8} {entries : List (k.Slot × Nat)}

/-- The checks of a view are those of the entries of its builder. -/
theorem Layout.Opens.checked_iff {view : k.View} (h : k.Opens view entries data) :
    (k.value view).Checked check ↔ k.Checks check data 0 entries := by
  cases k with
  | message =>
    obtain ⟨hdata, hasc, hperm⟩ := h
    change (_ ∧ ∀ e ∈ view.table.entries, ∃ part n, view.data.upTo e.stop = some part ∧ _) ↔ _
    simp only [hdata, hperm.mem_iff, List.forall_mem_map]
    exact and_iff_right hasc
  | list =>
    obtain ⟨hdata, hstops⟩ := h
    change (∀ p ∈ ListTable.extents 0 view.table.stops, _) ↔ _
    rw [hstops, hdata]
    rfl

/-- What the first value contributes to the checks, if `check` finds it at the end of its bytes `e`
and accepts it under the condition `C`. -/
theorem Layout.checks_cons {slot : k.Slot} {last gap : Nat} {front e : List UInt8}
    {later : List (k.Slot × Nat)} {C : Prop} (hpre : (front ++ e) <+: data)
    (hgap : front.length = last + gap)
    (hcheck : ∀ rest n, check (ofBytes e ++ rest) = .ok n ↔ n = e.length ∧ C) :
    k.Checks check data last ((slot, (front ++ e).length) :: later) ↔
      ((k = .list → gap = 0) ∧ C) ∧ k.Checks check data (front ++ e).length later := by
  have htake : data.take (front ++ e).length = front ++ e :=
    (List.prefix_iff_eq_take.1 hpre).symm
  have hinside : (front ++ e).length ≤ data.length := hpre.length_le
  cases k with
  | message =>
    have hhead : (∃ part n, (ofBytes data).upTo (front ++ e).length = some part ∧
        check part = .ok n) ↔ C := by
      simp only [upTo_eq_some_iff, length_ofBytes, toBytes_ofBytes, htake, hinside, true_and]
      constructor
      · rintro ⟨_, n, rfl, h⟩
        rw [ofBytes_append, hcheck] at h
        exact h.2
      · intro hC
        refine ⟨_, e.length, rfl, ?_⟩
        rw [ofBytes_append]
        exact (hcheck _ _).2 ⟨rfl, hC⟩
    rw [Checks, List.forall_mem_cons, hhead, and_iff_right (a := _ → _) nofun]
    rfl
  | list =>
    have hhead : (∃ part, (ofBytes data).slot last (front ++ e).length = some part ∧
        check part = .ok part.length) ↔ gap = 0 ∧ C := by
      have hlast : last ≤ front.length := by omega
      have hlast' : last ≤ (front ++ e).length := by
        rw [List.length_append]
        omega
      simp only [slot_eq_some_iff, length_ofBytes, toBytes_ofBytes, htake, hinside, hlast',
        true_and]
      rw [exists_eq_left, List.drop_append_of_le_length hlast, ofBytes_append, hcheck,
        List.length_append, length_ofBytes, length_ofBytes, List.length_drop]
      exact and_congr_left fun _ => by omega
    rw [Checks, List.map_cons, ListTable.extents_cons, List.forall_mem_cons, hhead]
    simp [Checks]

/-- A form of a value of a builtin type is accepted at the end of any string. -/
theorem validateWithin_datum {d : Datum} {e : List UInt8} (h : d.Form e) (levels : Nat)
    (rest : Tail) (n : Nat) :
    validateWithin levels (ofBytes e ++ rest) = .ok n ↔ n = e.length ∧ 0 < levels := by
  cases levels with
  | zero => exact ⟨nofun, fun h => absurd h.2 (Nat.lt_irrefl 0)⟩
  | succ levels =>
    have hread := Value.Form.read (v := .datum d) h rest
    rw [validateWithin_succ_iff, hread]
    constructor
    · rintro ⟨v, hv, -⟩
      cases hv
      exact ⟨rfl, levels.succ_pos⟩
    · rintro ⟨rfl, -⟩
      exact ⟨_, rfl, trivial⟩

namespace Contents

variable {c : Contents Datum k} {e : List UInt8} {last levels : Nat}

/-- What a finished builder left is accepted where the values inside it are. -/
theorem Fills.validateWithin_succ_iff (h : c.Fills Datum.Form entries 0 data)
    (hclosed : k.Closed entries data e) (rest : Tail) (n : Nat) :
    validateWithin (levels + 1) (ofBytes e ++ rest) = .ok n ↔
      n = e.length ∧ k.Checks (validateWithin levels) data 0 entries := by
  obtain ⟨view, hform, hopens⟩ := h.opens hclosed
  rw [Wire.validateWithin_succ_iff, hform.read rest, ← hopens.checked_iff]
  constructor
  · rintro ⟨v, hv, hchecked⟩
    cases hv
    exact ⟨rfl, hchecked⟩
  · rintro ⟨rfl, hchecked⟩
    exact ⟨_, rfl, hchecked⟩

/-- **The values are accepted** where they have nothing foreign in front of them and do not lie too
deep. -/
theorem Fills.checks_iff (h : c.Fills Datum.Form entries last data) :
    k.Checks (validateWithin levels) data last entries ↔ c.Seamless ∧ c.height ≤ levels := by
  induction c generalizing last levels data with
  | @empty k =>
    obtain rfl : entries = [] := h
    cases k <;> simp [Layout.Checks, ListTable.extents, Seamless, height]
  | value slot gap d rest ih =>
    obtain ⟨front, e, later, rfl, hpre, hgap, he, h⟩ := h
    rw [Layout.checks_cons hpre hgap (validateWithin_datum he levels), ih h, Seamless, height,
      Nat.max_le, Nat.succ_le_iff, and_and_and_comm]
  | nested slot gap inner rest ihInner ih =>
    obtain ⟨front, e, later, rfl, hpre, hgap, ⟨innerEntries, innerData, hclosed, hinner⟩, h⟩ := h
    have hcheck (before : Tail) (n : Nat) : validateWithin levels (ofBytes e ++ before) = .ok n ↔
        n = e.length ∧ inner.Seamless ∧ inner.height + 1 ≤ levels := by
      cases levels with
      | zero => exact ⟨fun h => (by cases h), fun h => absurd h.2.2 (Nat.not_succ_le_zero _)⟩
      | succ levels =>
        rw [hinner.validateWithin_succ_iff hclosed, ihInner hinner, Nat.add_le_add_iff_right]
    rw [Layout.checks_cons hpre hgap hcheck, ih h, Seamless, height, Nat.max_le]
    simp only [and_assoc, and_left_comm]

end Contents

/-- **A finished builder is accepted by validation** with the size it returned exactly when no list
in it recorded an element behind bytes of builders that were not recorded, and no value was recorded
deeper than `maxDepth`. -/
theorem validate_build_iff {run : Run Datum k} {buf buf' : Buffer} {n : Nat} {events : List Event}
    (h : run.build Datum.write buf = (.finished (.ok n), buf', events)) :
    validate buf'.tail = .ok n ↔
      (run.recorded Datum.write (.openAt k buf) buf).Seamless ∧
        (run.recorded Datum.write (.openAt k buf) buf).height ≤ maxDepth := by
  obtain ⟨data, entries, e, hbytes, hlen, hclosed, hfills⟩ :=
    Run.exec_ok Datum.appends run (Frame.holds_openAt k buf) h
  rw [Buffer.tail_eq_of_bytes hbytes, validate, hfills.validateWithin_succ_iff hclosed,
    and_iff_right hlen.symm]
  exact hfills.checks_iff

/-- A message in which an inner list is abandoned after one byte, and another byte is written. -/
def Run.leavingMessage : Run Datum .message :=
  .nest (k := .message) 6 (j := .list) (.write () [.byte 1] .abandon)
    (.write (k := .message) 7 [.byte 2] .finish)

/-- It is accepted: the abandoned bytes stand in front of its field. -/
theorem validate_build_leaving :
    ∃ (buf : Buffer) (events : List Event),
      Run.leavingMessage.build Datum.write {} = (.finished (.ok 10), buf, events) ∧
        validate buf.tail = .ok 10 := by
  have hrun : (Run.leavingMessage.build Datum.write {}).1 = .finished (.ok 10) := by cbv
  have h : Run.leavingMessage.build Datum.write {} =
      (.finished (.ok 10), (Run.leavingMessage.build Datum.write {}).2) := by rw [← hrun]
  have hrec : Run.leavingMessage.recorded Datum.write (.openAt .message {}) {} =
      .value (k := .message) 7 2 (.byte 2) .empty := by cbv
  refine ⟨_, _, h, (validate_build_iff h).2 ?_⟩
  rw [hrec]
  exact ⟨⟨fun h => (by cases h), trivial⟩, by decide⟩

/-- A list in which the same is done. -/
def Run.leavingList : Run Datum .list :=
  .nest () (j := .list) (.write () [.byte 1] .abandon) (.write () [.byte 2] .finish)

/-- It is finished too, one level deep, and refused: its element does not fill its slot. -/
theorem build_refused :
    (Run.leavingList.build Datum.write {}).1 = .finished (.ok 9) ∧
      (Run.leavingList.recorded Datum.write (.openAt .list {}) {}).height < maxDepth ∧
      validate (Run.leavingList.build Datum.write {}).2.1.tail = .error .invalidTable := by
  have hrec : Run.leavingList.recorded Datum.write (.openAt .list {}) {} =
      .value (k := .list) () 2 (.byte 2) .empty := by cbv
  refine ⟨by cbv, ?_, by cbv⟩
  rw [hrec]
  decide

end Backwire.Wire
