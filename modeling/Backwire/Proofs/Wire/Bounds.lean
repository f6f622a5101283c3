import Backwire.Proofs.Wire.Lookup

/-!
# Reading stays within bounds

Bytes come from anywhere, and a reader computes positions from what they say. This module puts the
checked steps together: every reader by positions is the reader itself (`Reading.runAt_eq`), so
none of its checks ever fails. What it returns lies in the bytes that it was given, and so does
whatever is looked up in it afterwards.
-/

namespace Backwire.Wire

open Tail Position

/-! ### Validation by positions -/

/-- Checks the elements of a list at the given indices. -/
def checkElementsAt (check : List UInt8 → Guarded Nat) (l : ListView) : List Nat → Guarded Unit
  | [] => .ok ()
  | i :: rest => do
    match ← l.table.boundsAt i with
    | none => .error (.refused .invalidTable)
    | some (start, stop) =>
      if stop < start ∨ l.data.length < stop then .error (.refused .invalidTable)
      else
        let slot ← region (toBytes l.data) start stop
        let n ← check slot
        if n = slot.length then checkElementsAt check l rest else .error (.refused .invalidTable)

/-- Checks the fields of a message at the given places, whose tags must all lie above `last`. -/
def checkFieldsAt (check : List UInt8 → Guarded Nat) (m : MessageView) (last : Option UInt16) :
    List Nat → Guarded Unit
  | [] => .ok ()
  | i :: rest => do
    match ← m.table.entryAt i with
    | none => checkFieldsAt check m last rest
    | some e =>
      if last.any fun t => e.tag ≤ t then .error (.refused .invalidTable)
      else
        match region? (toBytes m.data) 0 e.stop with
        | none => .error (.refused .invalidTable)
        | some slot =>
          let _ ← check slot
          checkFieldsAt check m (some e.tag) rest

/-- Checks the parts of a value. -/
def Value.checkAt (check : List UInt8 → Guarded Nat) : Value → Guarded Unit
  | list l => checkElementsAt check l (List.range l.length)
  | message m => checkFieldsAt check m none (List.range m.length)
  | undefined | datum _ | struct _ => .ok ()

/-- Checks the value at the end of a string within a number of levels. -/
def validateAt : Nat → List UInt8 → Guarded Nat
  | 0, _ => .error (.refused .depthExceeded)
  | levels + 1, b => do
    let (v, n) ← Position.read .value b
    v.checkAt (validateAt levels)
    return n

section

variable {check : List UInt8 → Guarded Nat} {check' : Tail → Except WireError Nat}
  (hcheck : ∀ s, check s = .ofExcept (check' (ofBytes s)))

include hcheck

theorem checkElementsAt_eq {l : ListView} (h : l.table.bytes.length ≤ maxSize) {stops : List Nat}
    {start k : Nat}
    (hbounds : ∀ j, l.table.bounds? (k + j) = (ListTable.extents start stops)[j]?) :
    checkElementsAt check l (List.range' k stops.length) =
      .ofExcept (checkElements check' l.data start stops) := by
  -- the index runs along with the offsets that are left; `hbounds` keeps the two together
  induction stops generalizing start k with
  | nil => rfl
  | cons stop rest ih =>
    have hfirst : l.table.bounds? k = some (start, stop) := hbounds 0
    have hrest : ∀ j, l.table.bounds? (k + 1 + j) = (ListTable.extents stop rest)[j]? := fun j => by
      rw [Nat.add_right_comm, Nat.add_assoc, hbounds (j + 1)]
      rfl
    rw [List.length_cons, List.range'_succ, checkElementsAt, ListTable.boundsAt_eq h, ok_bind,
      hfirst, checkElements]
    dsimp only
    by_cases hin : start ≤ stop ∧ stop ≤ l.data.length
    · have hslot : l.data.slot start stop =
          some (ofBytes (((toBytes l.data).take stop).drop start)) :=
        slot_eq_some_iff.2 ⟨hin.1, hin.2, rfl⟩
      rw [if_neg (by omega), region_eq (by simpa using hin), ok_bind, hcheck, hslot]
      dsimp only
      cases check' (ofBytes (((toBytes l.data).take stop).drop start)) with
      | error e => rfl
      | ok n =>
        change (if _ then _ else _) = _
        rw [length_ofBytes]
        dsimp only
        split
        · exact ih hrest
        · rfl
    · have hslot : l.data.slot start stop = none := if_neg hin
      rw [if_pos (by omega), hslot]
      rfl

theorem checkFieldsAt_eq {m : MessageView} (h : m.table.bytes.length ≤ maxSize)
    {entries : List Entry} {last : Option UInt16} {k : Nat}
    (hentries : ∀ j, m.table.entry? (k + j) = entries[j]?) :
    checkFieldsAt check m last (List.range' k entries.length) =
      .ofExcept (checkFields check' m.data last entries) := by
  induction entries generalizing last k with
  | nil => rfl
  | cons e rest ih =>
    have hfirst : m.table.entry? k = some e := hentries 0
    have hrest : ∀ j, m.table.entry? (k + 1 + j) = rest[j]? := fun j => by
      rw [Nat.add_right_comm, Nat.add_assoc, hentries (j + 1)]
      rfl
    rw [List.length_cons, List.range'_succ, checkFieldsAt, MessageTable.entryAt_eq h, ok_bind,
      hfirst, checkFields]
    dsimp only
    split
    · rfl
    · rw [← slot_zero_eq_upTo, ← map_region?_eq_slot]
      cases region? (toBytes m.data) 0 e.stop with
      | none => rfl
      | some slot =>
        dsimp only [Option.map_some]
        rw [hcheck]
        cases check' (ofBytes slot) with
        | error err => rfl
        | ok n => exact ih hrest

end

/-- Closed data and its table lie within the bytes that close them. -/
theorem Sealed.within {tag : Tag} {data table e : List UInt8} (h : Sealed tag data table e) :
    (data ++ table) <+: e ∧ table.length ≤ maxSize := by
  obtain ⟨g, g', rfl, -, -, hmax⟩ := h
  refine ⟨⟨g ++ g' ++ [tag.toByte], by simp⟩, ?_⟩
  simp only [List.length_append] at hmax
  omega

theorem validateAt_eq (levels : Nat) (b : List UInt8) :
    validateAt levels b = .ofExcept (validateWithin levels (ofBytes b)) := by
  induction levels generalizing b with
  | zero => rfl
  | succ levels ih =>
    rw [validateAt, validateWithin_succ_eq, Maker.validation, Maker.read_bind, bind_assoc,
      Position.read_eq]
    refine Guarded.bind_ofExcept fun r hread => ?_
    obtain ⟨v, n⟩ := r
    have hcheck : v.checkAt (validateAt levels) = .ofExcept (v.check (validateWithin levels)) := by
      rw [← Value.read_eq, Value.read_eq_ok_iff] at hread
      cases v with
      | undefined | datum _ | struct _ => rfl
      | list l =>
        obtain ⟨-, h, -⟩ | ⟨e, -, -, -, -, -, hform⟩ := hread
        · cases h
        rw [Value.checkAt, List.range_eq_range', ListView.length, ← ListTable.length_stops]
        exact checkElementsAt_eq ih hform.within.2 fun j => by
          rw [Nat.zero_add, ListTable.bounds?_eq]
      | message m =>
        obtain ⟨-, h, -⟩ | ⟨e, -, -, -, -, -, hform⟩ := hread
        · cases h
        rw [Value.checkAt, List.range_eq_range', MessageView.length, ← MessageTable.length_entries]
        exact checkFieldsAt_eq ih hform.within.2 fun j => by
          rw [Nat.zero_add, MessageTable.entry?]
    dsimp only
    rw [hcheck]
    cases v.check (validateWithin levels) <;> rfl

/-! ### Structs by positions -/

/-- Takes the fields of a struct off the end of a string. -/
def RecordType.fieldsAt : RecordType → List UInt8 → Guarded (Record × List UInt8)
  | empty, b => .ok (.empty, b)
  | datum d rest, b => do
    let (later, b) ← rest.fieldsAt b
    let (v, n) ← Position.read (.builtin d) b
    let b ← before n b
    return (.datum v later, b)
  | record inner rest, b => do
    let (later, b) ← rest.fieldsAt b
    let (body, n) ← Position.read .struct b
    let (r, _) ← inner.fieldsAt (toBytes body)
    let b ← before n b
    return (.record r later, b)

/-- What stands in front of a value that was read. -/
theorem before_of_read {α : Type} {make : Maker α} {t : Tail} {v : α} {n : Nat}
    (h : make.read t = .ok (v, n)) : before n (toBytes t) = .ok (toBytes (t.drop n)) := by
  obtain ⟨rest, hbefore, hrest⟩ := exists_before (n := n) (b := toBytes t) (by
    rw [length_toBytes]
    exact Maker.le_length_of_read h)
  rw [ofBytes_toBytes] at hrest
  rw [hbefore, ← hrest, toBytes_ofBytes]

theorem RecordType.fieldsAt_eq (ty : RecordType) (t : Tail) :
    ty.fieldsAt (toBytes t) = .ofExcept (do
      let (r, rest) ← ty.readFields t
      return (r, toBytes rest)) := by
  induction ty generalizing t with
  | empty => rfl
  | datum d later ih =>
    rw [fieldsAt, ih, readFields, bind_assoc]
    cases later.readFields t with
    | error e => rfl
    | ok result =>
      obtain ⟨fields, t⟩ := result
      change Position.read (.builtin d) (toBytes t) >>= _ = _
      dsimp only [ok_bind]
      rw [Position.read_eq, ofBytes_toBytes, Builtin.read_eq, bind_assoc]
      refine Guarded.bind_ofExcept fun r hread => ?_
      obtain ⟨v, n⟩ := r
      dsimp only
      rw [before_of_read hread]
      rfl
  | record inner later ihInner ih =>
    rw [fieldsAt, ih, readFields, bind_assoc]
    cases later.readFields t with
    | error e => rfl
    | ok result =>
      obtain ⟨fields, t⟩ := result
      change Position.read .struct (toBytes t) >>= _ = _
      dsimp only [ok_bind]
      rw [Position.read_eq, ofBytes_toBytes, readStructOf, readStruct_eq, bind_assoc, bind_assoc]
      refine Guarded.bind_ofExcept fun r hread => ?_
      obtain ⟨body, n⟩ := r
      dsimp only
      rw [ihInner]
      cases inner.readFields body with
      | error e => rfl
      | ok result =>
        change before n (toBytes t) >>= _ = _
        rw [before_of_read hread]
        rfl

/-! ### All readers by positions -/

/-- The reader, by positions. -/
def Reading.runAt : (k : Reading) → List UInt8 → Guarded (k.Result × Nat)
  | validation, b => do
    let n ← validateAt (maxDepth + 1) b
    return ((), n)
  | record ty, b => do
    let (body, n) ← Position.read .struct b
    let (r, _) ← ty.fieldsAt (toBytes body)
    return (r, n)
  | k, b => Position.read k.maker b

/-- **Every reader by positions is the reader itself.** -/
theorem Reading.runAt_eq (k : Reading) (b : List UInt8) :
    k.runAt b = .ofExcept (k.run (ofBytes b)) := by
  rw [run_eq]
  cases k with
  | validation =>
    rw [runAt, validateAt_eq, validateWithin_succ_eq]
    refine (Guarded.bind_ofExcept (f := fun n => return ((), n)) fun _ _ => rfl).trans ?_
    rw [bind_assoc]
    exact congrArg _ (bind_pure _)
  | record ty =>
    rw [runAt, Position.read_eq, maker, Maker.record, Maker.read_bind]
    refine Guarded.bind_ofExcept fun r _ => ?_
    obtain ⟨body, n⟩ := r
    dsimp only
    rw [RecordType.fieldsAt_eq, bind_assoc]
    cases ty.readFields body <;> rfl
  | _ => exact Position.read_eq (maker _) b

/-! ### Looking into what was read -/

/-- **The table of a list can be asked for any index**: no access leaves it, and nothing is told
beyond the last element. -/
structure ListTable.Safe (t : ListTable) : Prop where
  whole : t.Whole
  stop : ∀ i, t.stopAt i = .ok (t.stop? i)
  bounds : ∀ i, t.boundsAt i = .ok (t.bounds? i)
  beyond : ∀ i, t.length ≤ i → t.stop? i = none ∧ t.bounds? i = none

/-- **The table of a message can be asked for any index and any tag**: no access leaves it, not even
those of the search, which do not ask whether an entry is there. -/
structure MessageTable.Safe (t : MessageTable) : Prop where
  whole : t.Whole
  entry : ∀ i, t.entryAt i = .ok (t.entry? i)
  stopAtIndex : ∀ i, t.stopAtIndex i = .ok (t.stopAtIndex? i)
  known : ∀ i < t.length,
    ∃ e, t.entry? i = some e ∧ t.knownTag i = .ok e.tag ∧ t.knownStop i = .ok e.stop
  search : ∀ tag, t.searchAt tag 0 t.length = .ok (t.find? tag)
  stop : ∀ tag, t.stopOf tag = .ok (t.stop? tag)
  beyond : ∀ i, t.length ≤ i → t.entry? i = none ∧ t.stopAtIndex? i = none

/-- **A list can be asked for any element**: its bytes are a region of the data, and nothing is told
where the offsets are no region. -/
structure ListView.Safe (l : ListView) : Prop where
  table : l.table.Safe
  dataSize : l.table.dataSize = l.data.length
  raw : ∀ i, l.rawAt i = .ok (l.raw? i)
  inside : ∀ i slot, l.raw? i = some slot → ∃ start stop, l.table.bounds? i = some (start, stop) ∧
    start ≤ stop ∧ stop ≤ l.data.length ∧ toBytes slot = ((toBytes l.data).take stop).drop start
  outside : ∀ i start stop, l.table.bounds? i = some (start, stop) →
    stop < start ∨ l.data.length < stop → l.raw? i = none

/-- **A message can be asked for any field**: its bytes are the data up to a position, and nothing
is told where the position lies outside. -/
structure MessageView.Safe (m : MessageView) : Prop where
  table : m.table.Safe
  dataSize : m.table.dataSize = m.data.length
  field : ∀ tag, m.fieldAt tag = .ok (m.field? tag)
  inside : ∀ tag part, m.field? tag = some part → ∃ stop, m.table.stop? tag = some stop ∧
    stop ≤ m.data.length ∧ toBytes part = (toBytes m.data).take stop
  outside : ∀ tag stop, m.table.stop? tag = some stop → m.data.length < stop → m.field? tag = none

theorem ListTable.safe {t : ListTable} (hwhole : t.Whole) (hsize : t.bytes.length ≤ maxSize) :
    t.Safe where
  whole := hwhole
  stop := stopAt_eq hsize
  bounds := boundsAt_eq hsize
  beyond i hi := by
    have hstop : t.stop? i = none := List.getElem?_eq_none (by rwa [length_stops])
    refine ⟨hstop, ?_⟩
    unfold bounds?
    rw [hstop]

theorem MessageTable.safe {t : MessageTable} (hwhole : t.Whole)
    (hsize : t.bytes.length ≤ maxSize) : t.Safe where
  whole := hwhole
  entry := entryAt_eq hsize
  stopAtIndex := stopAtIndex_eq hsize
  known _ := known_eq hsize
  search _ := searchAt_eq hsize (Nat.le_refl _)
  stop := stopOf_eq hsize
  beyond i hi := by
    have hentry : t.entry? i = none := List.getElem?_eq_none (by rwa [length_entries])
    exact ⟨hentry, by rw [stopAtIndex?, hentry, Option.map_none]⟩

theorem ListView.safe {l : ListView} (hdata : l.table.dataSize = l.data.length)
    (hwhole : l.table.Whole) (hsize : l.table.bytes.length ≤ maxSize) : l.Safe where
  table := ListTable.safe hwhole hsize
  dataSize := hdata
  raw := rawAt_eq hsize
  inside i slot h := by
    unfold raw? at h
    split at h
    · cases h
    · rename_i start stop hbounds
      obtain ⟨hle, hin, rfl⟩ := slot_eq_some_iff.1 h
      exact ⟨start, stop, hbounds, hle, hin, toBytes_ofBytes _⟩
  outside i start stop hbounds hout := by
    rw [raw?, hbounds]
    exact if_neg (by omega)

theorem MessageView.safe {m : MessageView} (hdata : m.table.dataSize = m.data.length)
    (hwhole : m.table.Whole) (hsize : m.table.bytes.length ≤ maxSize) : m.Safe where
  table := MessageTable.safe hwhole hsize
  dataSize := hdata
  field := fieldAt_eq hsize
  inside tag part h := by
    unfold field? at h
    split at h
    · cases h
    · rename_i stop hstop
      obtain ⟨hin, rfl⟩ := upTo_eq_some_iff.1 h
      exact ⟨stop, hstop, hin, toBytes_ofBytes _⟩
  outside tag stop hstop hout := by
    rw [field?, hstop]
    exact if_neg (by omega)

/-! ### Where what was read lies -/

/-- The bytes or the text of a value are a region of the given bytes. -/
def Datum.Within (b : List UInt8) : Datum → Prop
  | bytes v => v <:+: b
  | string s => utf8 s <:+: b
  | _ => True

/-- So are those of all fields of a struct. -/
def Record.Within (b : List UInt8) : Record → Prop
  | empty => True
  | datum d rest => d.Within b ∧ rest.Within b
  | record inner rest => inner.Within b ∧ rest.Within b

/-- The data and the table of a list are neighbouring regions of the given bytes. -/
def ListView.Within (b : List UInt8) (l : ListView) : Prop :=
  (toBytes l.data ++ l.table.bytes) <:+: b ∧ l.Safe

/-- The data and the table of a message are neighbouring regions of the given bytes. -/
def MessageView.Within (b : List UInt8) (m : MessageView) : Prop :=
  (toBytes m.data ++ m.table.bytes) <:+: b ∧ m.Safe

def Value.Within (b : List UInt8) : Value → Prop
  | undefined => True
  | datum d => d.Within b
  | struct body => toBytes body <:+: b
  | list l => l.Within b
  | message m => m.Within b

/-- **What was read lies in the bytes it was read from**, and can be looked into. -/
def Reading.Within (b : List UInt8) : (k : Reading) → k.Result → Prop
  | extent, _ => True
  | builtin _, d => d.Within b
  | struct, body => toBytes body <:+: b
  | listTable, t => t.bytes <:+: b ∧ t.Safe
  | messageTable, t => t.bytes <:+: b ∧ t.Safe
  | list, l => l.Within b
  | message, m => m.Within b
  | value, v => v.Within b
  | validation, _ => True
  | record _, r => r.Within b

theorem Datum.Within.mono {b b' : List UInt8} {d : Datum} (h : d.Within b) (hb : b <:+: b') :
    d.Within b' := by
  cases d with
  | bytes v => exact List.IsInfix.trans h hb
  | string s => exact List.IsInfix.trans h hb
  | _ => trivial

theorem Record.Within.mono {b b' : List UInt8} {r : Record} (h : r.Within b) (hb : b <:+: b') :
    r.Within b' := by
  induction r with
  | empty => trivial
  | datum d rest ih => exact ⟨h.1.mono hb, ih h.2⟩
  | record inner rest ihInner ih => exact ⟨ihInner h.1, ih h.2⟩

theorem Value.Within.mono {b b' : List UInt8} {v : Value} (h : v.Within b) (hb : b <:+: b') :
    v.Within b' := by
  cases v with
  | undefined => trivial
  | datum d => exact Datum.Within.mono h hb
  | struct body => exact List.IsInfix.trans h hb
  | list l => exact ⟨h.1.trans hb, h.2⟩
  | message m => exact ⟨h.1.trans hb, h.2⟩

/-- A form holds what it is a form of. -/
theorem Value.Form.within {v : Value} {e : List UInt8} (h : v.Form e) : v.Within e := by
  cases v with
  | undefined => trivial
  | datum d =>
    cases d with
    | bytes v =>
      obtain ⟨g, rfl, -⟩ := h
      exact (List.prefix_append_of_prefix (List.prefix_append v g)).isInfix
    | string s =>
      obtain ⟨g, rfl, -⟩ := h
      exact ⟨[], [0] ++ g ++ [Tag.string.toByte], by simp⟩
    | _ => trivial
  | struct body =>
    obtain ⟨g, rfl, -⟩ := h
    exact ⟨[], g ++ [Tag.struct.toByte], by simp⟩
  | list l =>
    obtain ⟨hdata, hwhole, hsealed⟩ := h
    exact ⟨hsealed.within.1.isInfix, ListView.safe hdata hwhole hsealed.within.2⟩
  | message m =>
    obtain ⟨hdata, hwhole, hsealed⟩ := h
    exact ⟨hsealed.within.1.isInfix, MessageView.safe hdata hwhole hsealed.within.2⟩

theorem Value.within_of_read {b : List UInt8} {v : Value} {n : Nat}
    (h : Value.read (ofBytes b) = .ok (v, n)) : v.Within b := by
  rcases Value.read_eq_ok_iff.1 h with ⟨-, rfl, -⟩ | hends
  · trivial
  · obtain ⟨p, e, rfl, -, he⟩ := endsIn_ofBytes.1 hends
    exact he.within.mono (List.suffix_append p e).isInfix

/-- Values of one kind are made as they are made among values of any kind, or refused; only the
absent value may be something else. -/
def Maker.OfKind {α : Type} (make : Maker α) (g : α → Value) : Prop := ∀ tag,
  tag = .undefined ∨ (∃ expected, make tag = .error expected) ∨ Maker.value tag = make.map g tag

/-- A reader of values of one kind reads its default, or what the reader of values reads. -/
theorem Maker.default_or_value {α : Type} {make : Maker α} {g : α → Value} (hmake : make.OfKind g)
    {t : Tail} {a : α} {n : Nat} (h : make.read t = .ok (a, n)) :
    (∃ f, make .undefined = .ok f ∧ f () = .ok a) ∨ Value.read t = .ok (g a, n) := by
  obtain ⟨tag, f, p, htag, hf, hp, ha⟩ := read_eq_ok_iff.1 h
  rcases hmake tag with rfl | ⟨expected, herror⟩ | hvalue
  · exact .inl ⟨f, hf, ha⟩
  · rw [hf] at herror
    cases herror
  · rw [map, bind, hf] at hvalue
    rw [Value.read_eq]
    exact .inr (read_eq_ok_iff.2 ⟨tag, _, p, htag, hvalue, hp, by rw [ha]; rfl⟩)

section

variable {b : List UInt8} {n : Nat}

theorem readList_within {l : ListView} (h : readList (ofBytes b) = .ok (l, n)) : l.Within b := by
  rw [readList_eq] at h
  have hmake : Maker.list.OfKind .list := fun tag => by
    cases tag <;> first | exact .inl rfl | exact .inr (.inr rfl) | exact .inr (.inl ⟨_, rfl⟩)
  rcases Maker.default_or_value hmake h with ⟨f, hf, hl⟩ | hvalue
  · cases hf
    cases hl
    exact ⟨List.nil_infix, ListView.safe rfl rfl (Nat.zero_le _)⟩
  · exact Value.within_of_read hvalue

theorem readMessage_within {m : MessageView} (h : readMessage (ofBytes b) = .ok (m, n)) :
    m.Within b := by
  rw [readMessage_eq] at h
  have hmake : Maker.message.OfKind .message := fun tag => by
    cases tag <;> first | exact .inl rfl | exact .inr (.inr rfl) | exact .inr (.inl ⟨_, rfl⟩)
  rcases Maker.default_or_value hmake h with ⟨f, hf, hm⟩ | hvalue
  · cases hf
    cases hm
    exact ⟨List.nil_infix, MessageView.safe rfl rfl (Nat.zero_le _)⟩
  · exact Value.within_of_read hvalue

theorem readStruct_within {body : Tail} (h : readStruct (ofBytes b) = .ok (body, n)) :
    toBytes body <:+: b := by
  rw [readStruct_eq] at h
  have hmake : Maker.struct.OfKind .struct := fun tag => by
    cases tag <;> first | exact .inl rfl | exact .inr (.inr rfl) | exact .inr (.inl ⟨_, rfl⟩)
  rcases Maker.default_or_value hmake h with ⟨f, hf, hbody⟩ | hvalue
  · cases hf
    cases hbody
    exact List.nil_infix
  · exact Value.within_of_read hvalue

theorem Builtin.within_of_read {builtin : Builtin} {d : Datum}
    (h : builtin.read (ofBytes b) = .ok (d, n)) : d.Within b := by
  have hmake (htext : builtin = .bytes ∨ builtin = .string) :
      (Maker.builtin builtin).OfKind .datum := fun tag => by
    rcases htext with rfl | rfl <;> cases tag <;>
      first | exact .inl rfl | exact .inr (.inr rfl) | exact .inr (.inl ⟨_, rfl⟩)
  cases builtin
  case bytes | string =>
    rw [Builtin.read_eq] at h
    rcases Maker.default_or_value (hmake (by simp)) h with ⟨f, hf, hd⟩ | hvalue
    · cases hf
      cases hd
      exact List.nil_infix
    · exact Value.within_of_read hvalue
  all_goals
    obtain ⟨_, -, h⟩ := bind_eq_ok_iff.1 h
    cases h
    trivial

theorem RecordType.within_of_readFields {ty : RecordType} {t rest : Tail} {r : Record}
    (h : ty.readFields t = .ok (r, rest)) :
    r.Within (toBytes t) ∧ toBytes rest <+: toBytes t := by
  -- the last field is read first, so every field lies in what the later ones left
  have hdrop (t : Tail) (n : Nat) : toBytes (t.drop n) <+: toBytes t :=
    List.reverse_prefix.2 (List.drop_suffix n t)
  induction ty generalizing t rest r with
  | empty =>
    cases h
    exact ⟨trivial, List.prefix_rfl⟩
  | datum d later ih =>
    obtain ⟨⟨fields, t'⟩, hlater, h⟩ := bind_eq_ok_iff.1 h
    obtain ⟨⟨v, n⟩, hv, h⟩ := bind_eq_ok_iff.1 h
    cases h
    obtain ⟨hfields, hpre⟩ := ih hlater
    have hv' : v.Within (toBytes t') := Builtin.within_of_read (by rwa [ofBytes_toBytes])
    exact ⟨⟨hv'.mono hpre.isInfix, hfields⟩, (hdrop t' n).trans hpre⟩
  | record inner later ihInner ih =>
    obtain ⟨⟨fields, t'⟩, hlater, h⟩ := bind_eq_ok_iff.1 h
    obtain ⟨⟨r', n⟩, hr, h⟩ := bind_eq_ok_iff.1 h
    cases h
    obtain ⟨⟨body, _⟩, hbody, hr⟩ := bind_eq_ok_iff.1 hr
    obtain ⟨⟨_, _⟩, hinner, hr⟩ := bind_eq_ok_iff.1 hr
    cases hr
    obtain ⟨hfields, hpre⟩ := ih hlater
    have hbody' : toBytes body <:+: toBytes t' := readStruct_within (by rwa [ofBytes_toBytes])
    exact ⟨⟨(ihInner hinner).1.mono (hbody'.trans hpre.isInfix), hfields⟩, (hdrop t' n).trans hpre⟩

/-- What any reader reads lies in the bytes it was given. -/
theorem Reading.within_of_run {k : Reading} {v : k.Result} (h : k.run (ofBytes b) = .ok (v, n)) :
    k.Within b v := by
  cases k with
  | extent | validation => trivial
  | builtin _ => exact Builtin.within_of_read h
  | struct => exact readStruct_within h
  | list => exact readList_within h
  | message => exact readMessage_within h
  | value => exact Value.within_of_read h
  | listTable =>
    change readListTable (ofBytes b) = _ at h
    rw [readListTable_eq, Maker.read_map, ← readList_eq] at h
    obtain ⟨⟨l, m⟩, hl, h⟩ := bind_eq_ok_iff.1 h
    cases h
    obtain ⟨hin, hsafe⟩ := readList_within hl
    exact ⟨(List.suffix_append _ _).isInfix.trans hin, hsafe.table⟩
  | messageTable =>
    change readMessageTable (ofBytes b) = _ at h
    rw [readMessageTable_eq, Maker.read_map, ← readMessage_eq] at h
    obtain ⟨⟨m, _⟩, hm, h⟩ := bind_eq_ok_iff.1 h
    cases h
    obtain ⟨hin, hsafe⟩ := readMessage_within hm
    exact ⟨(List.suffix_append _ _).isInfix.trans hin, hsafe.table⟩
  | record ty =>
    obtain ⟨⟨body, _⟩, hbody, h⟩ := bind_eq_ok_iff.1 h
    obtain ⟨⟨_, _⟩, hfields, h⟩ := bind_eq_ok_iff.1 h
    cases h
    exact (RecordType.within_of_readFields hfields).1.mono (readStruct_within hbody)

end

/-- **No bytes lead a reader out of bounds.** Whatever is read from whatever bytes:

* every region, byte and difference that is asked for on the way exists, and the outcome is that of
  the reader;
* a value takes no more bytes than there are, lies in them, and keeps all later accesses, by any
  index or tag, within its own table and data. -/
theorem reading_in_bounds (k : Reading) (b : List UInt8) :
    k.runAt b ≠ .error .outside ∧ k.runAt b = .ofExcept (k.run (ofBytes b)) ∧
      ∀ v n, k.run (ofBytes b) = .ok (v, n) → n ≤ b.length ∧ k.Within b v := by
  refine ⟨?_, k.runAt_eq b, fun v n h => ⟨?_, Reading.within_of_run h⟩⟩
  · rw [k.runAt_eq]
    exact Guarded.ofExcept_ne_outside _
  · rw [Reading.run_eq] at h
    simpa using Maker.le_length_of_read h

/-- A list of one element, whose offset lies far outside its two bytes of data. -/
def ListView.outlying : ListView := ⟨ofBytes [7, 3], ⟨[0, 9], 2, false⟩⟩

/-- It is read within bounds, and neither its element nor one at a huge index is found. -/
theorem reading_in_bounds_outlying :
    Reading.list.runAt [7, 3, 0, 9, 2, 2, 70] = .ok (.outlying, 7) ∧
      ListView.outlying.Within [7, 3, 0, 9, 2, 2, 70] ∧
      ListView.outlying.rawAt 0 = .ok none ∧
      ListView.outlying.rawAt 18446744073709551615 = .ok none := by
  have hread : Reading.list.run (ofBytes [7, 3, 0, 9, 2, 2, 70]) = .ok (ListView.outlying, 7) := by
    rfl
  obtain ⟨-, hrun, hin⟩ := reading_in_bounds .list [7, 3, 0, 9, 2, 2, 70]
  obtain ⟨-, hwithin⟩ := hin _ _ hread
  have hsafe : ListView.outlying.Safe := hwithin.2
  have hoffset : ListView.outlying.table.bounds? 0 = some (0, 9) := by rfl
  have hnone : ListView.outlying.table.bounds? 18446744073709551615 = none :=
    (hsafe.table.beyond _ (by decide)).2
  refine ⟨by rw [hrun, hread]; rfl, hwithin, ?_, ?_⟩
  · rw [hsafe.raw, hsafe.outside 0 0 9 hoffset (.inr (by decide))]
  · rw [hsafe.raw, ListView.raw?, hnone]

end Backwire.Wire
