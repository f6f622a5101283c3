import Backwire.Proofs.Wire.Datum
import Backwire.Proofs.Wire.Table

/-!
# Views and their written forms

`v.Form e` says that the bytes `e` write the value `v`. Of a list or message it only says that data
and table are closed as they should be: what lies between the offsets is not looked at.
`Value.read_eq_ok_iff` is the whole of `Value.read`.
-/

namespace Backwire.Wire

open Tail

/-! ### Lists and messages -/

/-- The tag of a list whose table has the given layout. -/
def Tag.ofList (big : Bool) : Tag := if big then .bigList else .list

/-- The tag of a message whose table has the given layout. -/
def Tag.ofMessage (big : Bool) : Tag := if big then .bigMessage else .message

/-- The written forms of a list. -/
def ListView.Form (l : ListView) (e : List UInt8) : Prop :=
  l.table.dataSize = l.data.length ∧ l.table.Whole ∧
    Sealed (.ofList l.table.big) (toBytes l.data) l.table.bytes e

/-- The written forms of a message. -/
def MessageView.Form (m : MessageView) (e : List UInt8) : Prop :=
  m.table.dataSize = m.data.length ∧ m.table.Whole ∧
    Sealed (.ofMessage m.table.big) (toBytes m.data) m.table.bytes e

/-- A sealed string ends in its tag. -/
theorem Sealed.tag_eq {tag tag' : Tag} {t : Tail} {n : Nat} {data table : List UInt8}
    (h : EndsIn (tag.toByte :: t) n (Sealed tag' data table)) : tag' = tag := by
  obtain ⟨e, rest, ht, -, g, g', rfl, -⟩ := h
  rw [ofBytes_concat, List.cons_append, List.cons.injEq] at ht
  exact Tag.toByte_injective ht.1.symm

theorem Tag.ofList_inj {a b : Bool} (h : Tag.ofList a = Tag.ofList b) : a = b := by
  cases a <;> cases b <;> first | rfl | cases h

theorem Tag.ofMessage_inj {a b : Bool} (h : Tag.ofMessage a = Tag.ofMessage b) : a = b := by
  cases a <;> cases b <;> first | rfl | cases h

theorem readList_eq_ok_iff {big : Bool} {t : Tail} {l : ListView} {n : Nat} :
    readList ((Tag.ofList big).toByte :: t) = .ok (l, n) ↔
      EndsIn ((Tag.ofList big).toByte :: t) n l.Form := by
  have htag : Tag.ofList big ≠ .undefined ∧ (Tag.ofList big).isList = true ∧
      (Tag.ofList big == .bigList) = big := by
    cases big <;> decide
  unfold ListView.Form
  rw [endsIn_const_and, endsIn_const_and]
  simp only [readList, readTag_cons, ok_bind, if_neg htag.1, if_pos htag.2.1, htag.2.2,
    bind_eq_ok_iff, Prod.exists, pure_eq_ok_iff, Prod.mk.injEq, ListTable.ofBytes_eq_ok_iff]
  constructor
  · rintro ⟨⟨data, table, size⟩, _, hread, _, ⟨rfl, hwhole⟩, rfl, rfl⟩
    obtain ⟨hsize, hends⟩ := readSections_eq_ok_iff.1 hread
    exact ⟨hsize, hwhole, hends⟩
  · rintro ⟨hsize, hwhole, hends⟩
    obtain ⟨data, table, size, big'⟩ := l
    obtain rfl := Tag.ofList_inj (Sealed.tag_eq hends)
    exact ⟨⟨data, table, size⟩, n, readSections_eq_ok_iff.2 ⟨hsize, hends⟩, _, ⟨rfl, hwhole⟩,
      rfl, rfl⟩

theorem readMessage_eq_ok_iff {big : Bool} {t : Tail} {m : MessageView} {n : Nat} :
    readMessage ((Tag.ofMessage big).toByte :: t) = .ok (m, n) ↔
      EndsIn ((Tag.ofMessage big).toByte :: t) n m.Form := by
  have htag : Tag.ofMessage big ≠ .undefined ∧ (Tag.ofMessage big).isMessage = true ∧
      (Tag.ofMessage big == .bigMessage) = big := by
    cases big <;> decide
  unfold MessageView.Form
  rw [endsIn_const_and, endsIn_const_and]
  simp only [readMessage, readTag_cons, ok_bind, if_neg htag.1, if_pos htag.2.1, htag.2.2,
    bind_eq_ok_iff, Prod.exists, pure_eq_ok_iff, Prod.mk.injEq, MessageTable.ofBytes_eq_ok_iff]
  constructor
  · rintro ⟨⟨data, table, size⟩, _, hread, _, ⟨rfl, hwhole⟩, rfl, rfl⟩
    obtain ⟨hsize, hends⟩ := readSections_eq_ok_iff.1 hread
    exact ⟨hsize, hwhole, hends⟩
  · rintro ⟨hsize, hwhole, hends⟩
    obtain ⟨data, table, size, big'⟩ := m
    obtain rfl := Tag.ofMessage_inj (Sealed.tag_eq hends)
    exact ⟨⟨data, table, size⟩, n, readSections_eq_ok_iff.2 ⟨hsize, hends⟩, _, ⟨rfl, hwhole⟩,
      rfl, rfl⟩

/-- The list with the given data and offsets. -/
def ListView.make (big : Bool) (data : List UInt8) (stops : List Nat) : ListView :=
  ⟨ofBytes data, ⟨ListTable.encode big stops, data.length, big⟩⟩

/-- The message with the given data and entries. -/
def MessageView.make (big : Bool) (data : List UInt8) (entries : List Entry) : MessageView :=
  ⟨ofBytes data, ⟨MessageTable.encode big entries, data.length, big⟩⟩

theorem ListView.form_make {big : Bool} {data e : List UInt8} {stops : List Nat}
    (h : Sealed (.ofList big) data (ListTable.encode big stops) e) : (make big data stops).Form e :=
  ⟨(length_ofBytes data).symm, ListTable.whole_encode _ _ _, by rwa [make, toBytes_ofBytes]⟩

theorem MessageView.form_make {big : Bool} {data e : List UInt8} {entries : List Entry}
    (h : Sealed (.ofMessage big) data (MessageTable.encode big entries) e) :
    (make big data entries).Form e :=
  ⟨(length_ofBytes data).symm, MessageTable.whole_encode _ _ _, by rwa [make, toBytes_ofBytes]⟩

theorem ListView.stops_make {big : Bool} {stops : List Nat} (h : ListTable.Fits big stops)
    (data : List UInt8) : (make big data stops).table.stops = stops :=
  ListTable.stops_encode h data.length

theorem MessageView.entries_make {big : Bool} {entries : List Entry}
    (h : MessageTable.Fits big entries) (data : List UInt8) :
    (make big data entries).table.entries = entries :=
  MessageTable.entries_encode h data.length

/-- A form in front of which anything may stand reads back as its list. -/
theorem ListView.Form.read {l : ListView} {e : List UInt8} (h : l.Form e) (rest : Tail) :
    readList (ofBytes e ++ rest) = .ok (l, e.length) := by
  have hends := EndsIn.intro rest h
  obtain ⟨-, -, g, g', rfl, -⟩ := h
  rw [ofBytes_concat, List.cons_append] at hends ⊢
  exact readList_eq_ok_iff.2 hends

/-- A form in front of which anything may stand reads back as its message. -/
theorem MessageView.Form.read {m : MessageView} {e : List UInt8} (h : m.Form e) (rest : Tail) :
    readMessage (ofBytes e ++ rest) = .ok (m, e.length) := by
  have hends := EndsIn.intro rest h
  obtain ⟨-, -, g, g', rfl, -⟩ := h
  rw [ofBytes_concat, List.cons_append] at hends ⊢
  exact readMessage_eq_ok_iff.2 hends

/-! ### Values -/

theorem readStruct_eq_ok_iff {t body : Tail} {n : Nat} :
    readStruct (Tag.struct.toByte :: t) = .ok (body, n) ↔
      EndsIn (Tag.struct.toByte :: t) n (RegionForm .struct (toBytes body)) := by
  rw [← readRegion_eq_ok_iff]
  simp [readStruct]

/-- **The written forms of a value.** The absent value has none. -/
def Value.Form : Value → List UInt8 → Prop
  | undefined, _ => False
  | datum d, e => d.Form e
  | struct body, e => RegionForm .struct (toBytes body) e
  | list l, e => l.Form e
  | message m, e => m.Form e

/-- A form ends in the tag of its value. -/
theorem Value.Form.last {v : Value} {e : List UInt8} (h : v.Form e) :
    ∃ p, e = p ++ [v.tag.toByte] := by
  cases v with
  | undefined => cases h
  | datum d => exact Datum.Form.last h
  | struct body =>
    obtain ⟨g, rfl, -⟩ := h
    exact ⟨_, rfl⟩
  | list l =>
    obtain ⟨-, -, g, g', rfl, -⟩ := h
    exact ⟨_, rfl⟩
  | message m =>
    obtain ⟨-, -, g, g', rfl, -⟩ := h
    exact ⟨_, rfl⟩

theorem Value.tag_of_endsIn {v : Value} {tag : Tag} {t : Tail} {n : Nat}
    (h : EndsIn (tag.toByte :: t) n v.Form) : v.tag = tag := by
  obtain ⟨e, rest, ht, -, he⟩ := h
  obtain ⟨p, rfl⟩ := he.last
  rw [ofBytes_concat, List.cons_append, List.cons.injEq] at ht
  exact Tag.toByte_injective ht.1.symm

/-- A reader of one kind of values, as a reader of values. -/
def Value.readAs {α : Type} (read : Reader α) (make : α → Value) : Reader Value := fun t => do
  let (a, n) ← read t
  return (make a, n)

/-- A value under a tag of a builtin type. -/
theorem Value.read_datum {b : Builtin} {tag : Tag} (hb : tag.builtin? = some b) {t : Tail}
    {v : Value} {n : Nat} :
    Value.read (tag.toByte :: t) = .ok (v, n) ↔ EndsIn (tag.toByte :: t) n v.Form := by
  have hread : Value.read (tag.toByte :: t) = readAs b.read .datum (tag.toByte :: t) := by
    cases tag <;> cases hb <;> simp [Value.read, readAs]
  simp only [hread, readAs, bind_eq_ok_iff, Prod.exists, pure_eq_ok_iff, Prod.mk.injEq,
    Builtin.read_eq_ok_iff hb]
  constructor
  · rintro ⟨d, _, h, rfl, rfl⟩
    exact h
  · intro h
    have htag := Value.tag_of_endsIn h
    obtain ⟨d, rfl⟩ : ∃ d, v = .datum d := by
      subst htag
      cases v with
      | datum d => exact ⟨d, rfl⟩
      | undefined | struct _ => cases hb
      | list l | message m => simp only [Value.tag] at hb; split at hb <;> cases hb
    exact ⟨d, n, h, rfl, rfl⟩

/-- A value under a tag that no builtin type has, read by the reader of its kind. -/
theorem Value.read_make {α : Type} {read : Reader α} {make : α → Value} {tag : Tag} {t : Tail}
    (hread : ∀ a n, read (tag.toByte :: t) = .ok (a, n) ↔ EndsIn (tag.toByte :: t) n (make a).Form)
    (hmake : ∀ v : Value, v.tag = tag → ∃ a, make a = v) {v : Value} {n : Nat} :
    readAs read make (tag.toByte :: t) = .ok (v, n) ↔ EndsIn (tag.toByte :: t) n v.Form := by
  simp only [readAs, bind_eq_ok_iff, Prod.exists, pure_eq_ok_iff, Prod.mk.injEq]
  constructor
  · rintro ⟨a, _, h, rfl, rfl⟩
    exact (hread a _).1 h
  · intro h
    obtain ⟨a, rfl⟩ := hmake v (Value.tag_of_endsIn h)
    exact ⟨a, n, (hread a n).2 h, rfl, rfl⟩

/-- The values under the tags that no builtin type has. -/
theorem Value.eq_of_tag {v : Value} (h : v.tag.builtin? = none) :
    (v = .undefined ∧ v.tag = .undefined) ∨ (∃ body, v = .struct body ∧ v.tag = .struct) ∨
      (∃ l, v = .list l ∧ v.tag = .ofList l.table.big) ∨
      ∃ m, v = .message m ∧ v.tag = .ofMessage m.table.big := by
  cases v with
  | undefined => exact .inl ⟨rfl, rfl⟩
  | datum d =>
    have hd : d.tag.builtin? = none := h
    rw [Datum.builtin?_tag] at hd
    cases hd
  | struct body => exact .inr (.inl ⟨body, rfl, rfl⟩)
  | list l => exact .inr (.inr (.inl ⟨l, rfl, rfl⟩))
  | message m => exact .inr (.inr (.inr ⟨m, rfl, rfl⟩))

theorem Tag.ofList_cases (big : Bool) : Tag.ofList big = .list ∨ Tag.ofList big = .bigList := by
  cases big <;> decide

theorem Tag.ofMessage_cases (big : Bool) :
    Tag.ofMessage big = .message ∨ Tag.ofMessage big = .bigMessage := by
  cases big <;> decide

theorem Value.read_list (big : Bool) {t : Tail} {v : Value} {n : Nat} :
    Value.read ((Tag.ofList big).toByte :: t) = .ok (v, n) ↔
      EndsIn ((Tag.ofList big).toByte :: t) n v.Form := by
  have hread : Value.read ((Tag.ofList big).toByte :: t) =
      readAs readList .list ((Tag.ofList big).toByte :: t) := by
    cases big <;> simp [Value.read, readAs, Tag.ofList]
  rw [hread]
  refine Value.read_make (fun _ _ => readList_eq_ok_iff) fun v hv => ?_
  have := Tag.ofList_cases big
  have hnone : v.tag.builtin? = none := by rw [hv]; cases big <;> rfl
  rcases Value.eq_of_tag hnone with ⟨-, h⟩ | ⟨_, -, h⟩ | ⟨l, rfl, -⟩ | ⟨m, -, h⟩
  · grind
  · grind
  · exact ⟨l, rfl⟩
  · have := Tag.ofMessage_cases m.table.big
    grind

theorem Value.read_message (big : Bool) {t : Tail} {v : Value} {n : Nat} :
    Value.read ((Tag.ofMessage big).toByte :: t) = .ok (v, n) ↔
      EndsIn ((Tag.ofMessage big).toByte :: t) n v.Form := by
  have hread : Value.read ((Tag.ofMessage big).toByte :: t) =
      readAs readMessage .message ((Tag.ofMessage big).toByte :: t) := by
    cases big <;> simp [Value.read, readAs, Tag.ofMessage]
  rw [hread]
  refine Value.read_make (fun _ _ => readMessage_eq_ok_iff) fun v hv => ?_
  have := Tag.ofMessage_cases big
  have hnone : v.tag.builtin? = none := by rw [hv]; cases big <;> rfl
  rcases Value.eq_of_tag hnone with ⟨-, h⟩ | ⟨_, -, h⟩ | ⟨l, -, h⟩ | ⟨m, rfl, -⟩
  · grind
  · grind
  · have := Tag.ofList_cases l.table.big
    grind
  · exact ⟨m, rfl⟩

theorem Value.read_struct {t : Tail} {v : Value} {n : Nat} :
    Value.read (Tag.struct.toByte :: t) = .ok (v, n) ↔
      EndsIn (Tag.struct.toByte :: t) n v.Form := by
  have hread : Value.read (Tag.struct.toByte :: t) =
      readAs readStruct .struct (Tag.struct.toByte :: t) := by
    simp [Value.read, readAs]
  rw [hread]
  refine Value.read_make (fun _ _ => readStruct_eq_ok_iff) fun v hv => ?_
  have hnone : v.tag.builtin? = none := by rw [hv]; rfl
  rcases Value.eq_of_tag hnone with ⟨-, h⟩ | ⟨body, rfl, -⟩ | ⟨l, -, h⟩ | ⟨m, -, h⟩
  · grind
  · exact ⟨body, rfl⟩
  · have := Tag.ofList_cases l.table.big
    grind
  · have := Tag.ofMessage_cases m.table.big
    grind

/-- What is read under a tag other than that of the absent value. -/
theorem Value.read_cons {tag : Tag} (htag : tag ≠ .undefined) {t : Tail} {v : Value} {n : Nat} :
    Value.read (tag.toByte :: t) = .ok (v, n) ↔ EndsIn (tag.toByte :: t) n v.Form := by
  cases hb : tag.builtin? with
  | some b => exact Value.read_datum hb
  | none =>
    match tag, hb with
    | .undefined, _ => exact absurd rfl htag
    | .struct, _ => exact Value.read_struct
    | .list, _ => exact Value.read_list false
    | .bigList, _ => exact Value.read_list true
    | .message, _ => exact Value.read_message false
    | .bigMessage, _ => exact Value.read_message true

/-- No form ends in the tag of the absent value. -/
theorem Value.not_endsIn_undefined {v : Value} {t : Tail} {n : Nat} :
    ¬ EndsIn (Tag.undefined.toByte :: t) n v.Form := by
  intro h
  have htag := Value.tag_of_endsIn h
  have hnone : v.tag.builtin? = none := by rw [htag]; rfl
  rcases Value.eq_of_tag hnone with ⟨rfl, -⟩ | ⟨_, -, h⟩ | ⟨l, -, h⟩ | ⟨m, -, h⟩
  · obtain ⟨e, rest, -, -, he⟩ := h
    exact he
  · grind
  · have := Tag.ofList_cases l.table.big
    grind
  · have := Tag.ofMessage_cases m.table.big
    grind

/-- The string holds the absent value: it is empty or ends in a zero byte. -/
def Tail.Blank (t : Tail) : Prop := t = [] ∨ ∃ rest, t = Tag.undefined.toByte :: rest

/-- **What is read** is the absent value of a blank string, and otherwise the value of which the
string ends in a form. -/
theorem Value.read_eq_ok_iff {t : Tail} {v : Value} {n : Nat} :
    Value.read t = .ok (v, n) ↔ (t.Blank ∧ v = .undefined ∧ n = 0) ∨ t.EndsIn n v.Form := by
  cases t with
  | nil =>
    have hread : Value.read [] = .ok (.undefined, 0) := rfl
    rw [hread]
    constructor
    · intro h
      cases h
      exact .inl ⟨.inl rfl, rfl, rfl⟩
    · rintro (⟨-, rfl, rfl⟩ | ⟨e, rest, ht, -, he⟩)
      · rfl
      · obtain ⟨p, rfl⟩ := he.last
        simp [ofBytes_concat] at ht
  | cons b t =>
    cases hb : Tag.ofByte? b with
    | none =>
      have hread : Value.read (b :: t) = .error (.unknownType b) := by
        simp [Value.read, readTag, hb]
        rfl
      rw [hread]
      refine ⟨fun h => (by cases h), ?_⟩
      rintro (⟨h | ⟨rest, h⟩, -, -⟩ | ⟨e, rest, ht, -, he⟩)
      · cases h
      · cases h
        cases hb
      · obtain ⟨p, rfl⟩ := he.last
        rw [ofBytes_concat, List.cons_append, List.cons.injEq] at ht
        rw [ht.1, Tag.ofByte?_toByte] at hb
        cases hb
    | some tag =>
      obtain rfl := Tag.toByte_of_ofByte? hb
      by_cases htag : tag = .undefined
      · subst htag
        have hread : Value.read (Tag.undefined.toByte :: t) = .ok (.undefined, 0) := rfl
        rw [hread]
        constructor
        · intro h
          cases h
          exact .inl ⟨.inr ⟨t, rfl⟩, rfl, rfl⟩
        · rintro (⟨-, rfl, rfl⟩ | h)
          · rfl
          · exact absurd h Value.not_endsIn_undefined
      · rw [Value.read_cons htag, or_iff_right]
        rintro ⟨h | ⟨rest, h⟩, -, -⟩
        · cases h
        · exact htag (Tag.toByte_injective (List.cons.inj h).1)

/-- A form in front of which anything may stand reads back as its value. -/
theorem Value.Form.read {v : Value} {e : List UInt8} (h : v.Form e) (rest : Tail) :
    Value.read (ofBytes e ++ rest) = .ok (v, e.length) :=
  Value.read_eq_ok_iff.2 (.inr (.intro rest h))

end Backwire.Wire
