import Backwire.Proofs.Wire.Position

/-!
# Looking into tables and views by positions

An entry of a table stands at its index times the width of an entry. The index may be any number,
so it is compared with the number of entries before it is multiplied; and halving reads its tags
without asking whether they are there. Here every such access is checked as in `Position`, and
again no check fails. What lies outside the data is no fault: a view then tells nothing.
-/

namespace Backwire.Wire

open Tail Position

/-! ### Numbers in a table -/

namespace Position

/-- The `width` bytes from a position on. -/
def bytesFrom (b : List UInt8) : Nat → Nat → Guarded (List UInt8)
  | _, 0 => .ok []
  | i, width + 1 => do
    let byte ← byteAt b i
    let rest ← bytesFrom b (i + 1) width
    return byte :: rest

/-- The big-endian number of `width` bytes from a position on. -/
def word (b : List UInt8) (i width : Nat) : Guarded Nat := do
  let bytes ← bytesFrom b i width
  return Word.ofBytes bytes

theorem bytesFrom_eq {b : List UInt8} {i width : Nat} (h : i + width ≤ b.length) :
    bytesFrom b i width = .ok ((b.drop i).take width) := by
  induction width generalizing i with
  | zero => rfl
  | succ width ih =>
    rw [bytesFrom, byteAt_eq (by omega), ok_bind, ih (by omega), ok_bind,
      List.drop_eq_getElem_cons (by omega : i < b.length), List.take_succ_cons]
    rfl

theorem word_eq {b : List UInt8} {i width : Nat} (h : i + width ≤ b.length) :
    word b i width = .ok (Word.ofBytes ((b.drop i).take width)) := by
  rw [word, bytesFrom_eq h]
  rfl

/-- The bytes of an entry of a table, or nothing beyond the last one. -/
def entry (table : List UInt8) (width i : Nat) : Guarded (Option (List UInt8)) :=
  if table.length / width ≤ i then .ok none
  else do
    let start ← times i width
    let stop ← times (i + 1) width
    return region? table start stop

/-- An entry that is not beyond the last one lies in the table. -/
theorem mul_add_le_of_lt_div {i n width : Nat} (h : i < n / width) : i * width + width ≤ n := by
  rw [← Nat.succ_mul]
  exact (Nat.mul_le_mul_right width h).trans (Nat.div_mul_le_self n width)

theorem entry_eq {table : List UInt8} (h : table.length ≤ maxSize) (width i : Nat) :
    entry table width i = .ok (if table.length / width ≤ i then none
      else some ((table.drop (i * width)).take width)) := by
  unfold entry
  split
  · rfl
  · rename_i hi
    have hin := mul_add_le_of_lt_div (Nat.lt_of_not_le hi)
    rw [times_eq (by omega), ok_bind, times_eq (by rw [Nat.succ_mul]; omega), ok_bind,
      region?_eq (by rw [Nat.succ_mul]; omega), List.drop_take, Nat.succ_mul,
      Nat.add_sub_cancel_left]
    rfl

end Position

/-- The item at an index is made of the piece that stands there. -/
theorem Chunked.getElem?_eq {α : Type} {width : Nat} {dec : List UInt8 → List α}
    {item : List UInt8 → α} (h : Chunked width dec item) (bytes : List UInt8) (i : Nat) :
    (dec bytes)[i]? = if bytes.length / width ≤ i then none
      else some (item ((bytes.drop (i * width)).take width)) := by
  split
  · rename_i hi
    exact List.getElem?_eq_none (by rwa [h.length_dec])
  · rename_i hi
    have hin := mul_add_le_of_lt_div (Nat.lt_of_not_le hi)
    clear hi
    induction i generalizing bytes with
    | zero =>
      rw [h.eq_cons (by omega), List.getElem?_cons_zero, Nat.zero_mul, List.drop_zero]
    | succ i ih =>
      rw [Nat.succ_mul] at hin
      rw [h.eq_cons (by omega), List.getElem?_cons_succ, ih _ (by simp; omega), List.drop_drop,
        Nat.succ_mul, Nat.add_comm width]

/-! ### Lists -/

namespace ListTable

variable {t : ListTable}

/-- The end offset of an element. -/
def stopAt (t : ListTable) (i : Nat) : Guarded (Option Nat) := do
  match ← entry t.bytes (entryWidth t.big) i with
  | none => return none
  | some bytes =>
    let stop ← word bytes 0 (entryWidth t.big)
    return some stop

/-- The offsets between which an element lies. -/
def boundsAt (t : ListTable) (i : Nat) : Guarded (Option (Nat × Nat)) := do
  match ← t.stopAt i with
  | none => return none
  | some stop =>
    if i = 0 then return some (0, stop)
    else
      let previous ← minus i 1
      match ← t.stopAt previous with
      | none => return none
      | some start => return some (start, stop)

theorem stopAt_eq (h : t.bytes.length ≤ maxSize) (i : Nat) : t.stopAt i = .ok (t.stop? i) := by
  rw [stopAt, entry_eq h, ok_bind, stop?, stops_eq_decode, (chunked_decode t.big).getElem?_eq]
  by_cases hi : t.bytes.length / entryWidth t.big ≤ i
  · rw [if_pos hi, if_pos hi]
    rfl
  · rw [if_neg hi, if_neg hi]
    have hin := mul_add_le_of_lt_div (Nat.lt_of_not_le hi)
    have hlen : ((t.bytes.drop (i * entryWidth t.big)).take (entryWidth t.big)).length =
        entryWidth t.big := by
      simp
      omega
    dsimp only
    rw [word_eq (by omega), ok_bind, List.drop_zero, List.take_of_length_le (by omega)]
    rfl

theorem boundsAt_eq (h : t.bytes.length ≤ maxSize) (i : Nat) :
    t.boundsAt i = .ok (t.bounds? i) := by
  rw [boundsAt, stopAt_eq h, ok_bind]
  unfold bounds?
  cases hstop : t.stop? i with
  | none => rfl
  | some stop =>
    cases i with
    | zero => rfl
    | succ i =>
      dsimp only
      rw [if_neg i.succ_ne_zero, minus_eq (Nat.le_add_left 1 i), ok_bind, Nat.add_sub_cancel,
        stopAt_eq h, ok_bind]
      cases t.stop? i <;> rfl

end ListTable

/-! ### Messages -/

namespace MessageTable

variable {t : MessageTable}

/-- An entry by its place in the table. -/
def entryAt (t : MessageTable) (i : Nat) : Guarded (Option Entry) := do
  match ← entry t.bytes (entryWidth t.big) i with
  | none => return none
  | some bytes =>
    let tag ← word bytes 0 (tagWidth t.big)
    let stop ← word bytes (tagWidth t.big) (stopWidth t.big)
    return some ⟨tag.toUInt16, stop⟩

/-- The end offset of an entry by its place in the table. -/
def stopAtIndex (t : MessageTable) (i : Nat) : Guarded (Option Nat) := do
  match ← t.entryAt i with
  | none => return none
  | some e => return some e.stop

/-- The tag of an entry, of which the caller has to know that it is there. -/
def knownTag (t : MessageTable) (i : Nat) : Guarded UInt16 :=
  if i < t.length then do
    let start ← times i (entryWidth t.big)
    let tag ← word t.bytes start (tagWidth t.big)
    return tag.toUInt16
  else .error .outside

/-- The end offset of an entry, of which the caller has to know that it is there. -/
def knownStop (t : MessageTable) (i : Nat) : Guarded Nat :=
  if i < t.length then do
    let start ← times i (entryWidth t.big)
    word t.bytes (start + tagWidth t.big) (stopWidth t.big)
  else .error .outside

/-- The place of a tag between `lo` and `hi`, found by halving. -/
def searchAt (t : MessageTable) (tag : UInt16) (lo hi : Nat) : Guarded (Option Nat) :=
  if lo < hi then do
    let _ ← minus hi lo
    let found ← t.knownTag (lo + (hi - lo) / 2)
    if found < tag then t.searchAt tag (lo + (hi - lo) / 2 + 1) hi
    else if tag < found then t.searchAt tag lo (lo + (hi - lo) / 2)
    else return some (lo + (hi - lo) / 2)
  else return none
termination_by hi - lo

/-- The end offset of the field with the tag. -/
def stopOf (t : MessageTable) (tag : UInt16) : Guarded (Option Nat) := do
  match ← t.searchAt tag 0 t.length with
  | none => return none
  | some i =>
    let stop ← t.knownStop i
    return some stop

theorem entryAt_eq (h : t.bytes.length ≤ maxSize) (i : Nat) : t.entryAt i = .ok (t.entry? i) := by
  rw [entryAt, entry_eq h, ok_bind, entry?, entries_eq_decode, (chunked_decode t.big).getElem?_eq]
  by_cases hi : t.bytes.length / entryWidth t.big ≤ i
  · rw [if_pos hi, if_pos hi]
    rfl
  · rw [if_neg hi, if_neg hi]
    have hin := mul_add_le_of_lt_div (Nat.lt_of_not_le hi)
    have hwidth := tagWidth_add_stopWidth t.big
    have hlen : ((t.bytes.drop (i * entryWidth t.big)).take (entryWidth t.big)).length =
        entryWidth t.big := by
      simp
      omega
    dsimp only
    rw [word_eq (by omega), ok_bind, word_eq (by omega), ok_bind, List.drop_zero,
      List.take_of_length_le (i := stopWidth t.big) (by simp; omega)]
    rfl

theorem stopAtIndex_eq (h : t.bytes.length ≤ maxSize) (i : Nat) :
    t.stopAtIndex i = .ok (t.stopAtIndex? i) := by
  rw [stopAtIndex, entryAt_eq h, ok_bind, stopAtIndex?]
  cases t.entry? i <;> rfl

/-- The tag and the end offset of an entry that is there are those of the entry. -/
theorem known_eq (h : t.bytes.length ≤ maxSize) {i : Nat} (hi : i < t.length) :
    ∃ e, t.entries[i]? = some e ∧ t.knownTag i = .ok e.tag ∧ t.knownStop i = .ok e.stop := by
  have hin : i * entryWidth t.big + entryWidth t.big ≤ t.bytes.length := mul_add_le_of_lt_div hi
  have hwidth := tagWidth_add_stopWidth t.big
  refine ⟨entryOf t.big ((t.bytes.drop (i * entryWidth t.big)).take (entryWidth t.big)), ?_, ?_, ?_⟩
  · rw [entries_eq_decode, (chunked_decode t.big).getElem?_eq]
    exact if_neg (Nat.not_le_of_lt hi)
  · rw [knownTag, if_pos hi, times_eq (by omega), ok_bind, word_eq (by omega), ok_bind, entryOf,
      List.take_take, Nat.min_eq_left (by omega)]
    rfl
  · rw [knownStop, if_pos hi, times_eq (by omega), ok_bind, word_eq (by omega), entryOf,
      List.drop_take, List.drop_drop, ← hwidth, Nat.add_sub_cancel_left]

/-- Halving stays between its limits. -/
theorem lt_of_bisect {probe : Nat → Option UInt16} {tag : UInt16} {lo hi i : Nat}
    (h : bisect probe tag lo hi = some i) : i < hi := by
  fun_induction bisect probe tag lo hi with
  | case1 => cases h
  | case2 lo hi hlohi mid t hmid htag ih => exact ih h
  | case3 lo hi hlohi mid t hmid htag htag' ih => exact (ih h).trans (by omega)
  | case4 lo hi hlohi mid t hmid htag htag' =>
    rw [Option.some.injEq] at h
    omega
  | case5 => cases h

/-- **Halving reads no tag that is not there.** -/
theorem searchAt_eq (h : t.bytes.length ≤ maxSize) {tag : UInt16} {lo hi : Nat}
    (hhi : hi ≤ t.length) : t.searchAt tag lo hi = .ok (bisect t.tagAt? tag lo hi) := by
  -- the middle lies below `hi`, and `hi` only falls: every entry that is asked for is there
  fun_induction bisect t.tagAt? tag lo hi with
  | case1 lo hi hlohi mid hmid =>
    obtain ⟨e, he, -⟩ := known_eq h (i := mid) (by omega)
    rw [(tagAt?_stopAt? he).1] at hmid
    cases hmid
  | case2 lo hi hlohi mid found hmid htag ih =>
    obtain ⟨e, he, hknown, -⟩ := known_eq h (i := mid) (by omega)
    rw [(tagAt?_stopAt? he).1, Option.some.injEq] at hmid
    rw [searchAt, if_pos hlohi, minus_eq (by omega), ok_bind, hknown, ok_bind, hmid, if_pos htag]
    exact ih hhi
  | case3 lo hi hlohi mid found hmid htag htag' ih =>
    obtain ⟨e, he, hknown, -⟩ := known_eq h (i := mid) (by omega)
    rw [(tagAt?_stopAt? he).1, Option.some.injEq] at hmid
    rw [searchAt, if_pos hlohi, minus_eq (by omega), ok_bind, hknown, ok_bind, hmid, if_neg htag,
      if_pos htag']
    exact ih (by omega)
  | case4 lo hi hlohi mid found hmid htag htag' =>
    obtain ⟨e, he, hknown, -⟩ := known_eq h (i := mid) (by omega)
    rw [(tagAt?_stopAt? he).1, Option.some.injEq] at hmid
    rw [searchAt, if_pos hlohi, minus_eq (by omega), ok_bind, hknown, ok_bind, hmid, if_neg htag,
      if_neg htag']
    rfl
  | case5 lo hi hlohi =>
    rw [searchAt, if_neg hlohi]
    rfl

theorem stopOf_eq (h : t.bytes.length ≤ maxSize) (tag : UInt16) :
    t.stopOf tag = .ok (t.stop? tag) := by
  rw [stopOf, searchAt_eq h (Nat.le_refl _), ok_bind, stop?, find?]
  cases hfind : bisect t.tagAt? tag 0 t.length with
  | none => rfl
  | some i =>
    obtain ⟨e, he, -, hknown⟩ := known_eq h (lt_of_bisect hfind)
    dsimp only
    rw [hknown, ok_bind, (tagAt?_stopAt? he).2]
    rfl

end MessageTable

/-! ### Views -/

/-- The bytes of an element. -/
def ListView.rawAt (l : ListView) (i : Nat) : Guarded (Option Tail) := do
  match ← l.table.boundsAt i with
  | none => return none
  | some (start, stop) => return (region? (toBytes l.data) start stop).map ofBytes

/-- The data up to the end of a field. -/
def MessageView.fieldAt (m : MessageView) (tag : UInt16) : Guarded (Option Tail) := do
  match ← m.table.stopOf tag with
  | none => return none
  | some stop => return (region? (toBytes m.data) 0 stop).map ofBytes

theorem map_region?_eq_slot (data : Tail) (start stop : Nat) :
    (region? (toBytes data) start stop).map ofBytes = data.slot start stop := by
  refine Option.ext fun part => ?_
  rw [slot_eq_some_iff, region?]
  split <;> rename_i hin <;> rw [length_toBytes] at hin
  · simp [hin, eq_comm]
  · simp
    omega

theorem slot_zero_eq_upTo (data : Tail) (stop : Nat) : data.slot 0 stop = data.upTo stop := by
  refine Option.ext fun part => ?_
  rw [slot_eq_some_iff, upTo_eq_some_iff, List.drop_zero]
  exact and_iff_right (Nat.zero_le stop)

theorem ListView.rawAt_eq {l : ListView} (h : l.table.bytes.length ≤ maxSize) (i : Nat) :
    l.rawAt i = .ok (l.raw? i) := by
  rw [rawAt, ListTable.boundsAt_eq h, ok_bind, raw?]
  cases l.table.bounds? i with
  | none => rfl
  | some bounds =>
    dsimp only
    rw [map_region?_eq_slot]
    rfl

theorem MessageView.fieldAt_eq {m : MessageView} (h : m.table.bytes.length ≤ maxSize)
    (tag : UInt16) : m.fieldAt tag = .ok (m.field? tag) := by
  rw [fieldAt, MessageTable.stopOf_eq h, ok_bind, field?]
  cases m.table.stop? tag with
  | none => rfl
  | some stop =>
    dsimp only
    rw [map_region?_eq_slot, slot_zero_eq_upTo]
    rfl

end Backwire.Wire
