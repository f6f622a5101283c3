import Backwire.Proofs.Wire.Parts

/-!
# Access to what was validated

Views look at their data only when they are asked, and on the way ask for less, and in another
order, than validation did: a field is found by halving, and an element between the end of the one
before and its own. Where validation succeeded none of this can fail, neither in the value itself nor in
anything reached from it.
-/

namespace Backwire.Wire

open Tail

/-- **The strings from which values are read** when the value at the end of `t` is looked at through
its views, and the values inside it through theirs. -/
inductive Reached (t : Tail) : Tail → Prop
  | root : Reached t t
  | element {s slot : Tail} {l : ListView} {i n : Nat} (reached : Reached t s)
      (list : Value.read s = .ok (.list l, n)) (raw : l.raw? i = some slot) : Reached t slot
  | field {s part : Tail} {m : MessageView} {tag : UInt16} {n : Nat} (reached : Reached t s)
      (message : Value.read s = .ok (.message m, n)) (raw : m.field? tag = some part) :
      Reached t part

/-- **Every element of the list can be accessed**, by its index and in turn, and fills its slot. -/
structure ListView.Accessible (l : ListView) : Prop where
  element : ∀ i < l.length, ∃ slot v, l.raw? i = some slot ∧
    Value.read slot = .ok (v, slot.length) ∧ l.read? Value.read i = .ok (some v) ∧
      (l.items Value.read)[i]? = some (.ok v)
  items : (l.items Value.read).length = l.length

/-- **Every field of the message can be accessed**, by its tag and in turn, and no other tag finds
anything. -/
structure MessageView.Accessible (m : MessageView) : Prop where
  entry : ∀ e ∈ m.table.entries, m.table.stop? e.tag = some e.stop ∧ m.has e.tag = true ∧
    ∃ v, m.read? Value.read e.tag = .ok (some v)
  absent : ∀ tag ∉ m.table.tags, m.has tag = false ∧ m.read? Value.read tag = .ok none
  tags : m.fields.map Prod.fst = m.table.tags
  fields : ∀ f ∈ m.fields, m.field? f.1 = some f.2

/-- Everything in the value can be accessed. -/
def Value.Accessible : Value → Prop
  | list l => l.Accessible
  | message m => m.Accessible
  | undefined | datum _ | struct _ => True

variable {check : Tail → Except WireError Nat} {t s : Tail} {n levels : Nat}

/-- What is validated can be read, and what was read was checked. -/
theorem checked_of_validateWithin (h : validateWithin levels t = .ok n) :
    ∃ v levels, Value.read t = .ok (v, n) ∧ v.Checked (validateWithin levels) := by
  cases levels with
  | zero => cases h
  | succ levels =>
    obtain ⟨v, hv⟩ := validateWithin_succ_iff.1 h
    exact ⟨v, levels, hv⟩

/-- An element of a list that was checked. -/
theorem ListView.check_of_raw? {l : ListView} (h : (Value.list l).Checked check) {i : Nat}
    {slot : Tail} (hraw : l.raw? i = some slot) : check slot = .ok slot.length := by
  obtain ⟨p, hp, hslot⟩ := raw?_eq_some_iff.1 hraw
  obtain ⟨slot', hslot', hcheck⟩ := h p (List.mem_of_getElem? hp)
  rw [hslot] at hslot'
  cases hslot'
  exact hcheck

/-- A field of a message that was checked. -/
theorem MessageView.check_of_field? {m : MessageView} (h : (Value.message m).Checked check)
    {tag : UInt16} {part : Tail} (hraw : m.field? tag = some part) : ∃ n, check part = .ok n := by
  obtain ⟨stop, hmem, hpart⟩ := (field?_eq_some_iff h.1).1 hraw
  obtain ⟨part', n, hpart', hcheck⟩ := h.2 _ hmem
  rw [hpart] at hpart'
  cases hpart'
  exact ⟨n, hcheck⟩

/-- Whatever is reached from a validated string is validated. -/
theorem Reached.exists_validateWithin (h : Reached t s) (ht : validateWithin levels t = .ok n) :
    ∃ levels n, validateWithin levels s = .ok n := by
  induction h with
  | root => exact ⟨levels, n, ht⟩
  | element _ hlist hraw ih =>
    obtain ⟨_, _, hs⟩ := ih
    obtain ⟨v, levels, hread, hchecked⟩ := checked_of_validateWithin hs
    rw [hlist] at hread
    cases hread
    exact ⟨levels, _, ListView.check_of_raw? hchecked hraw⟩
  | field _ hmessage hraw ih =>
    obtain ⟨_, _, hs⟩ := ih
    obtain ⟨v, levels, hread, hchecked⟩ := checked_of_validateWithin hs
    rw [hmessage] at hread
    cases hread
    exact ⟨levels, MessageView.check_of_field? hchecked hraw⟩

/-- A list that was checked is accessible. -/
theorem ListView.accessible_of_checked {l : ListView} (h : (Value.list l).Checked check)
    (hcheck : ∀ {s n}, check s = .ok n → ∃ v, Value.read s = .ok (v, n)) : l.Accessible := by
  refine ⟨fun i hi => ?_, length_items l _⟩
  have hlen : i < (ListTable.extents 0 l.table.stops).length := by
    rwa [ListTable.length_extents, ListTable.length_stops]
  obtain ⟨slot, hslot, hok⟩ := h _ (List.getElem_mem hlen)
  have hraw : l.raw? i = some slot :=
    raw?_eq_some_iff.2 ⟨_, List.getElem?_eq_getElem hlen, hslot⟩
  obtain ⟨v, hread⟩ := hcheck hok
  exact ⟨slot, v, hraw, hread, read?_of_raw? hraw hread, items_of_raw? hraw hread⟩

/-- A message that was checked is accessible. -/
theorem MessageView.accessible_of_checked {m : MessageView} (h : (Value.message m).Checked check)
    (hcheck : ∀ {s n}, check s = .ok n → ∃ v, Value.read s = .ok (v, n)) : m.Accessible := by
  obtain ⟨hasc, hentries⟩ := h
  refine ⟨fun e he => ?_, fun tag htag => ⟨?_, read?_of_not_mem hasc htag⟩, ?_, fun f hf => ?_⟩
  · obtain ⟨part, n, hpart, hok⟩ := hentries e he
    obtain ⟨v, hread⟩ := hcheck hok
    have hfield : m.field? e.tag = some part := (field?_eq_some_iff hasc).2 ⟨e.stop, he, hpart⟩
    exact ⟨(MessageTable.stop?_eq_some_iff hasc).2 he,
      (MessageTable.contains_iff hasc).2 (List.mem_map_of_mem he), v, read?_of_field? hfield hread⟩
  · rw [has, Bool.eq_false_iff]
    exact fun hhas => htag ((MessageTable.contains_iff hasc).1 hhas)
  · exact map_fst_fields fun e he => by
      obtain ⟨part, n, hpart, -⟩ := hentries e he
      exact ⟨part, hpart⟩
  · obtain ⟨e, he, hf⟩ := List.mem_filterMap.1 hf
    obtain ⟨part, hpart, rfl⟩ := Option.map_eq_some_iff.1 hf
    exact (field?_eq_some_iff hasc).2 ⟨e.stop, he, hpart⟩

/-- **Validation makes access safe.** If validation of `t` succeeds, the value at its end is read
and takes the size that validation returned; and from whatever string is then reached a value is
read, all of which can be accessed. -/
theorem validate_accessible (h : validate t = .ok n) :
    (∃ v, Value.read t = .ok (v, n)) ∧
      ∀ s, Reached t s → ∃ v k, Value.read s = .ok (v, k) ∧ v.Accessible := by
  have hread {levels : Nat} {s : Tail} {n : Nat} (hs : validateWithin levels s = .ok n) :
      ∃ v, Value.read s = .ok (v, n) := by
    obtain ⟨v, -, hv, -⟩ := checked_of_validateWithin hs
    exact ⟨v, hv⟩
  refine ⟨hread h, fun s hs => ?_⟩
  obtain ⟨_, k, hk⟩ := hs.exists_validateWithin h
  obtain ⟨v, levels, hv, hchecked⟩ := checked_of_validateWithin hk
  refine ⟨v, k, hv, ?_⟩
  cases v with
  | undefined | datum _ | struct _ => trivial
  | list l => exact ListView.accessible_of_checked hchecked hread
  | message m => exact MessageView.accessible_of_checked hchecked hread

/-- A message with a list of two bytes under the tag 1. -/
theorem validate_accessible_nested :
    (∃ v, Value.read (ofBytes [7, 3, 9, 3, 0, 2, 0, 4, 4, 4, 70, 1, 0, 11, 11, 3, 80]) =
      .ok (v, 17)) ∧
      ∀ s, Reached (ofBytes [7, 3, 9, 3, 0, 2, 0, 4, 4, 4, 70, 1, 0, 11, 11, 3, 80]) s →
        ∃ v k, Value.read s = .ok (v, k) ∧ v.Accessible :=
  validate_accessible (by rfl)

end Backwire.Wire
