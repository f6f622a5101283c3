import Backwire.Proofs.Wire.View

/-!
# Parts of the data

Where the bytes of an element or a field lie in the data of a view, how they are read, and what it
means that the checks of all elements, or of all fields, succeed. `validateWithin_succ_iff` is all
that has to be known of validation: it reads a value and has its parts checked one level below.
-/

namespace Backwire.Wire

open Tail

/-! ### Regions -/

theorem Tail.upTo_eq_some_iff {data part : Tail} {stop : Nat} :
    data.upTo stop = some part ↔
      stop ≤ data.length ∧ part = ofBytes ((toBytes data).take stop) := by
  have htake : ofBytes ((toBytes data).take stop) = data.drop (data.length - stop) := by
    rw [toBytes, List.take_reverse]
    exact ofBytes_toBytes _
  unfold upTo
  split
  · rename_i h
    rw [htake, Option.some.injEq]
    exact ⟨fun hp => ⟨h, hp.symm⟩, fun hp => hp.2.symm⟩
  · rename_i h
    exact ⟨fun hp => (by cases hp), fun hp => absurd hp.1 h⟩

theorem Tail.slot_eq_some_iff {data part : Tail} {start stop : Nat} :
    data.slot start stop = some part ↔
      start ≤ stop ∧ stop ≤ data.length ∧
        part = ofBytes (((toBytes data).take stop).drop start) := by
  have htake : stop ≤ data.length → ofBytes (((toBytes data).take stop).drop start) =
      (data.drop (data.length - stop)).take (stop - start) := fun h => by
    rw [toBytes, List.take_reverse, List.drop_reverse, List.length_drop,
      show data.length - (data.length - stop) - start = stop - start by omega]
    exact ofBytes_toBytes _
  unfold slot
  split
  · rename_i h
    rw [htake h.2, Option.some.injEq]
    exact ⟨fun hp => ⟨h.1, h.2, hp.symm⟩, fun hp => hp.2.2.symm⟩
  · rename_i h
    exact ⟨fun hp => (by cases hp), fun hp => absurd ⟨hp.1, hp.2.1⟩ h⟩

/-- Where the elements lie that end at the given offsets, the first one starting at `start`. -/
def ListTable.extents (start : Nat) (stops : List Nat) : List (Nat × Nat) :=
  (start :: stops).zip stops

theorem ListTable.extents_cons (start stop : Nat) (rest : List Nat) :
    extents start (stop :: rest) = (start, stop) :: extents stop rest := rfl

theorem ListTable.length_extents (start : Nat) (stops : List Nat) :
    (extents start stops).length = stops.length := by
  simp [extents]

theorem ListTable.map_snd_extents (start : Nat) (stops : List Nat) :
    (extents start stops).map Prod.snd = stops := by
  rw [extents, List.map_snd_zip (by simp)]

/-- The offsets ascend where every element ends at or behind its start. -/
theorem ListTable.extents_le_iff {start : Nat} {stops : List Nat} :
    (∀ p ∈ extents start stops, p.1 ≤ p.2) ↔ (start :: stops).Pairwise (· ≤ ·) := by
  induction stops generalizing start with
  | nil => simp [extents]
  | cons stop rest ih =>
    rw [extents_cons, List.forall_mem_cons, ih]
    constructor
    · rintro ⟨hle, h⟩
      refine List.pairwise_cons.2 ⟨List.forall_mem_cons.2 ⟨hle, fun s hs => ?_⟩, h⟩
      exact Nat.le_trans hle (List.rel_of_pairwise_cons h hs)
    · intro h
      exact ⟨List.rel_of_pairwise_cons h List.mem_cons_self, h.of_cons⟩

theorem ListTable.bounds?_eq (t : ListTable) (i : Nat) : t.bounds? i = (extents 0 t.stops)[i]? := by
  unfold bounds? stop?
  cases hi : t.stops[i]? with
  | none =>
    rw [List.getElem?_eq_none (by rw [length_extents]; exact List.getElem?_eq_none_iff.1 hi)]
  | some stop =>
    symm
    cases i with
    | zero => exact List.getElem?_zip_eq_some.2 ⟨rfl, hi⟩
    | succ k =>
      obtain ⟨start, hstart⟩ : ∃ start, t.stops[k]? = some start :=
        ⟨_, List.getElem?_eq_getElem (Nat.lt_of_succ_lt (List.getElem?_eq_some_iff.1 hi).1)⟩
      change _ = (t.stops[k]?).map fun start => (start, stop)
      rw [hstart]
      exact List.getElem?_zip_eq_some.2 ⟨hstart, hi⟩

namespace ListView

theorem slotsFrom_eq (data : Tail) (start : Nat) (stops : List Nat) :
    slotsFrom data start stops =
      (ListTable.extents start stops).map fun p => data.slot p.1 p.2 := by
  induction stops generalizing start with
  | nil => rfl
  | cons stop rest ih => rw [slotsFrom, ih, ListTable.extents_cons, List.map_cons]

/-- The bytes of one element are found among those of all elements. -/
theorem raw?_eq (l : ListView) (i : Nat) : l.raw? i = l.slots[i]?.join := by
  rw [raw?, slots, slotsFrom_eq, ListTable.bounds?_eq, List.getElem?_map]
  cases (ListTable.extents 0 l.table.stops)[i]? <;> rfl

end ListView

/-! ### Access -/

namespace ListView

variable {α : Type} {read : Reader α} {l : ListView} {i : Nat} {slot : Tail} {v : α} {n : Nat}

theorem raw?_eq_some_iff : l.raw? i = some slot ↔
    ∃ p, (ListTable.extents 0 l.table.stops)[i]? = some p ∧ l.data.slot p.1 p.2 = some slot := by
  rw [raw?, ListTable.bounds?_eq]
  cases (ListTable.extents 0 l.table.stops)[i]? <;> simp

theorem lt_length_of_raw? (h : l.raw? i = some slot) : i < l.length := by
  obtain ⟨p, hp, -⟩ := raw?_eq_some_iff.1 h
  have := (List.getElem?_eq_some_iff.1 hp).1
  rwa [ListTable.length_extents, ListTable.length_stops] at this

/-- An element is read from its bytes. -/
theorem read?_of_raw? (h : l.raw? i = some slot) (hread : read slot = .ok (v, n)) :
    l.read? read i = .ok (some v) := by
  simp [read?, lt_length_of_raw? h, h, hread]

/-- The same bytes are read when every element is read in turn. -/
theorem items_of_raw? (h : l.raw? i = some slot) (hread : read slot = .ok (v, n)) :
    (l.items read)[i]? = some (.ok v) := by
  rw [raw?_eq, Option.join_eq_some_iff] at h
  simp [items, h, hread]

theorem length_items (l : ListView) (read : Reader α) : (l.items read).length = l.length := by
  rw [items, List.length_map, slots, slotsFrom_eq, List.length_map, ListTable.length_extents,
    ListTable.length_stops, length]

end ListView

namespace MessageView

variable {α : Type} {read : Reader α} {m : MessageView} {tag : UInt16} {part : Tail} {v : α}
  {n : Nat}

theorem field?_eq_some_iff (hasc : m.table.tags.Pairwise (· < ·)) : m.field? tag = some part ↔
    ∃ stop, ⟨tag, stop⟩ ∈ m.table.entries ∧ m.data.upTo stop = some part := by
  simp only [← MessageTable.stop?_eq_some_iff hasc, field?]
  cases m.table.stop? tag <;> simp

/-- A field is read from the data up to its end. -/
theorem read?_of_field? (h : m.field? tag = some part) (hread : read part = .ok (v, n)) :
    m.read? read tag = .ok (some v) := by
  unfold field? at h
  cases hstop : m.table.stop? tag with
  | none => simp [hstop] at h
  | some stop =>
    rw [hstop] at h
    simp [read?, hstop, h, hread]

/-- No field is read under a tag that is not in the table. -/
theorem read?_of_not_mem (hasc : m.table.tags.Pairwise (· < ·)) (h : tag ∉ m.table.tags) :
    m.read? read tag = .ok none := by
  simp [read?, (MessageTable.stop?_eq_none_iff hasc).2 h]

/-- Where every offset lies in the data no entry is left out. -/
theorem map_fst_fields (h : ∀ e ∈ m.table.entries, ∃ part, m.data.upTo e.stop = some part) :
    m.fields.map Prod.fst = m.table.tags := by
  rw [fields, List.map_filterMap, MessageTable.tags, List.filterMap_eq_map_iff_forall_eq_some]
  intro e he
  obtain ⟨part, hpart⟩ := h e he
  simp [hpart]

end MessageView

/-! ### Checks -/

variable {check : Tail → Except WireError Nat} {data : Tail}

/-- **The check of all elements** succeeds when every element lies in the data and its check uses
all of it. -/
theorem checkElements_eq_ok_iff {start : Nat} {stops : List Nat} :
    checkElements check data start stops = .ok () ↔ ∀ p ∈ ListTable.extents start stops,
      ∃ slot, data.slot p.1 p.2 = some slot ∧ check slot = .ok slot.length := by
  induction stops generalizing start with
  | nil => simp [checkElements, ListTable.extents]
  | cons stop rest ih =>
    rw [ListTable.extents_cons, List.forall_mem_cons, ← ih, checkElements]
    cases hslot : data.slot start stop with
    | none => simp
    | some slot =>
      cases hcheck : check slot with
      | error e => simp [hcheck]
      | ok n =>
        by_cases hn : n = slot.length
        · simp [hcheck, hn]
        · simp [hcheck, hn]

/-- **The check of all fields** succeeds when their tags ascend and the check of the data up to the
end of each of them succeeds. -/
theorem checkFields_eq_ok_iff {last : Option UInt16} {entries : List Entry} :
    checkFields check data last entries = .ok () ↔
      (last.toList ++ entries.map Entry.tag).Pairwise (· < ·) ∧
        ∀ e ∈ entries, ∃ part n, data.upTo e.stop = some part ∧ check part = .ok n := by
  induction entries generalizing last with
  | nil => cases last <;> simp [checkFields]
  | cons e rest ih =>
    have hlast : (last.any fun t => e.tag ≤ t) = false ↔ ∀ t ∈ last.toList, t < e.tag := by
      cases last <;> simp [UInt16.not_le]
    have hasc : (last.toList ++ (e :: rest).map Entry.tag).Pairwise (· < ·) ↔
        (∀ t ∈ last.toList, t < e.tag) ∧ (e.tag :: rest.map Entry.tag).Pairwise (· < ·) := by
      rw [List.pairwise_append, List.map_cons]
      constructor
      · rintro ⟨-, h, hlt⟩
        exact ⟨fun t ht => hlt t ht e.tag List.mem_cons_self, h⟩
      · rintro ⟨hlt, h⟩
        refine ⟨by cases last <;> simp, h, fun t ht => List.forall_mem_cons.2 ⟨hlt t ht, ?_⟩⟩
        exact fun u hu => UInt16.lt_trans (hlt t ht) (List.rel_of_pairwise_cons h hu)
    have ih' := @ih (some e.tag)
    rw [List.forall_mem_cons, hasc, checkFields, ← hlast]
    cases hany : last.any fun t => e.tag ≤ t with
    | true => simp
    | false =>
      cases hpart : data.upTo e.stop with
      | none => simp
      | some part =>
        cases hcheck : check part with
        | error err => simp [hcheck]
        | ok n => simp [hcheck, ih']

/-- What `check` has to say about the parts of a value for the value to be accepted. -/
def Value.Checked (check : Tail → Except WireError Nat) : Value → Prop
  | list l => ∀ p ∈ ListTable.extents 0 l.table.stops,
      ∃ slot, l.data.slot p.1 p.2 = some slot ∧ check slot = .ok slot.length
  | message m => m.table.tags.Pairwise (· < ·) ∧
      ∀ e ∈ m.table.entries, ∃ part n, m.data.upTo e.stop = some part ∧ check part = .ok n
  | undefined | datum _ | struct _ => True

/-- **One level of validation**: the value is read, and its parts are validated within one level
less. -/
theorem validateWithin_succ_iff {levels : Nat} {t : Tail} {n : Nat} :
    validateWithin (levels + 1) t = .ok n ↔
      ∃ v, Value.read t = .ok (v, n) ∧ v.Checked (validateWithin levels) := by
  cases hread : Value.read t with
  | error e => simp [validateWithin, hread]
  | ok r =>
    obtain ⟨v, m⟩ := r
    have hiff : validateWithin (levels + 1) t = .ok n ↔
        m = n ∧ v.Checked (validateWithin levels) := by
      cases v with
      | undefined | datum _ | struct _ => simp [validateWithin, hread, Value.Checked]
      | list l =>
        simp only [validateWithin, hread, Value.Checked, ← checkElements_eq_ok_iff]
        cases checkElements (validateWithin levels) l.data 0 l.table.stops <;> simp
      | message f =>
        have hfields :
            checkFields (validateWithin levels) f.data none f.table.entries = .ok () ↔ _ :=
          checkFields_eq_ok_iff
        rw [Option.toList_none, List.nil_append] at hfields
        simp only [validateWithin, hread, Value.Checked, MessageTable.tags, ← hfields]
        cases checkFields (validateWithin levels) f.data none f.table.entries <;> simp
    rw [hiff]
    constructor
    · rintro ⟨rfl, h⟩
      exact ⟨v, rfl, h⟩
    · rintro ⟨w, h, hw⟩
      cases h
      exact ⟨rfl, hw⟩

end Backwire.Wire
