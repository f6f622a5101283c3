import Backwire.Proofs.Wire.Assembly
import Backwire.Proofs.Wire.RoundTrip

/-!
# Fields in any order

A message is made of writes: values of builtin types, and inner builders that are finished. Every
offset in its table depends on the order of these writes, and so do its bytes. What does not depend
on it is everything that can be asked of the message: whether it is refused and for which tag, its
size and its layout, the tags it lists, and what is read under each of them.

The size and the layout are calculated from the writes without looking at their order
(`messageSize`, `isBig`): the largest offset is the size of all the data. A field is read from all the
data up to its end, and no reader can tell what stands in front of a value that is whole
(`Reading.run_append`), so the field is read as if its write had been made alone (`Shows`).
-/

namespace Backwire.Wire

open Tail

/-! ### Writes -/

/-- One write to a message. -/
inductive FieldWrite where
  /-- A value of a builtin type. -/
  | value (tag : UInt16) (d : Datum)
  /-- An inner builder, with everything that is done with it. -/
  | nested (tag : UInt16) {j : Layout} (inner : Run Datum j)

namespace FieldWrite

/-- The tag under which it is recorded. -/
def tag : FieldWrite → UInt16
  | value tag _ => tag
  | nested tag _ => tag

/-- The bytes it makes alone, in an empty buffer. -/
def bytes : FieldWrite → List UInt8
  | value _ d => (d.write.exec {}).2.bytes
  | nested _ inner => (inner.build Datum.write {}).2.1.bytes

/-- Alone it succeeds: the value is not too large, the inner builder is finished. -/
def Succeeds : FieldWrite → Prop
  | value _ d => ∃ n, (d.write.exec {}).1 = .ok n
  | nested _ inner => ∃ n, (inner.build Datum.write {}).1 = .finished (.ok n)

/-- The write, and what is done with the message then. -/
def before : FieldWrite → Run Datum .message → Run Datum .message
  | value tag d, rest => .write tag [d] rest
  | nested tag inner, rest => .nest tag inner rest

/-- The size of all the data. -/
def dataSize (writes : List FieldWrite) : Nat := (writes.map fun w => w.bytes.length).sum

/-- Whether the table needs the big layout. -/
def isBig (writes : List FieldWrite) : Bool :=
  (writes.any fun w => 255 < w.tag.toNat) || 65535 < dataSize writes

/-- The size of the table. -/
def tableSize (writes : List FieldWrite) : Nat :=
  writes.length * MessageTable.entryWidth (isBig writes)

/-- **The size of a message**: its data, its table, both their sizes and the tag. -/
def messageSize (writes : List FieldWrite) : Nat :=
  dataSize writes + (tableSize writes + Varint.width (dataSize writes) +
    Varint.width (tableSize writes) + 1)

end FieldWrite

/-- A message to which the given writes are made in turn. -/
def Run.ofWrites (writes : List FieldWrite) : Run Datum .message :=
  writes.foldr FieldWrite.before .finish

namespace FieldWrite

variable {w : FieldWrite} {writes writes' : List FieldWrite}

/-- None of this depends on the order. -/
theorem dataSize_perm (h : writes.Perm writes') : dataSize writes = dataSize writes' :=
  (h.map _).sum_eq

theorem isBig_perm (h : writes.Perm writes') : isBig writes = isBig writes' := by
  rw [isBig, isBig, dataSize_perm h, h.any_eq]

theorem messageSize_perm (h : writes.Perm writes') : messageSize writes = messageSize writes' := by
  rw [messageSize, messageSize, tableSize, tableSize, dataSize_perm h, isBig_perm h, h.length_eq]

/-- A value that is written alone. -/
theorem Succeeds.write_eq {tag : UInt16} {d : Datum} (h : (value tag d).Succeeds) :
    ∃ n buf, d.write {} = .ok n buf ∧ (value tag d).bytes = buf.bytes := by
  obtain ⟨n, hn⟩ := h
  cases hwrite : d.write {} with
  | ok m buf =>
    refine ⟨m, buf, rfl, ?_⟩
    simp only [bytes, Writer.exec, hwrite]
  | error e buf =>
    simp only [Writer.exec, hwrite] at hn
    cases hn

/-- What a write makes is a form of a value. -/
theorem Succeeds.form (h : w.Succeeds) : ∃ v : Value, v.Form w.bytes := by
  cases w with
  | value tag d =>
    obtain ⟨n, buf, hwrite, hbytes⟩ := h.write_eq
    obtain ⟨e, he, -, rfl⟩ := d.appends.ok hwrite
    refine ⟨.datum d, ?_⟩
    rw [hbytes]
    change d.Form (Buffer.bytes (({} : Buffer).write e))
    rwa [Buffer.bytes_write]
  | @nested tag j inner =>
    obtain ⟨n, hn⟩ := h
    have hrun : inner.build Datum.write {} =
        (.finished (.ok n), (inner.build Datum.write {}).2.1, (inner.build Datum.write {}).2.2) := by
      rw [← hn]
    obtain ⟨data, entries, e, hbytes, -, hclosed, hfills⟩ :=
      Run.exec_ok Datum.appends inner (Frame.holds_openAt j {}) hrun
    obtain ⟨view, hform, -⟩ := hfills.opens hclosed
    refine ⟨j.value view, ?_⟩
    rw [bytes, hbytes]
    exact hform

end FieldWrite

/-! ### Reading behind other bytes -/

/-- **No reader can tell what stands in front of a value that is whole**, whether it accepts the
value or not. -/
theorem Reading.run_append (k : Reading) {v : Value} {e : List UInt8} (h : v.Form e)
    (front : Tail) : k.run (ofBytes e ++ front) = k.run (ofBytes e) := by
  have hextent : readExtent (ofBytes e) = .ok (v.tag, e.length) := by
    have := readExtent_of_read (h.read [])
    rwa [List.append_nil] at this
  obtain ⟨htag, p, hp⟩ := readExtent_eq_ok_iff.1 hextent
  have hne : ofBytes e ≠ [] := by
    obtain ⟨p, rfl⟩ := h.last
    simp [ofBytes_concat]
  rw [k.run_eq, k.run_eq, k.maker.read_of_readTag htag,
    k.maker.read_of_readTag ((readTag_append hne front).trans htag)]
  unfold Maker.under
  rw [hp, readPayload_append htag hp front]

/-- A field is read from the data up to its end, also where the reader fails. -/
theorem MessageView.read?_eq_of_field? {α : Type} {m : MessageView} {tag : UInt16} {part : Tail}
    (read : Reader α) (h : m.field? tag = some part) :
    m.read? read tag = (read part).map fun r => some r.1 := by
  unfold field? at h
  cases hstop : m.table.stop? tag with
  | none => simp [hstop] at h
  | some stop =>
    rw [hstop] at h
    simp only [read?, hstop, h]
    cases read part <;> rfl

/-! ### The writes as parts -/

namespace FieldWrite

/-- What is recorded for a write. -/
def part (w : FieldWrite) : Layout.Part .message := (w.tag, w.bytes)

variable {w : FieldWrite} {m m' : MessageView} {writes writes' : List FieldWrite} {e : List UInt8}

theorem map_fst_part (writes : List FieldWrite) :
    (writes.map part).map Prod.fst = writes.map tag := List.map_map

theorem length_joined (writes : List FieldWrite) :
    (Parts.joined (writes.map part)).length = dataSize writes := by
  rw [Parts.length_joined, List.map_map]
  rfl

/-- The layout and the size that are calculated are those of a message of the parts. -/
theorem isBig_part (writes : List FieldWrite) :
    Layout.isBig .message ((writes.map part).map Prod.fst) (Parts.joined (writes.map part)).length =
      isBig writes := by
  rw [length_joined, map_fst_part, Layout.isBig, List.any_map]
  rfl

theorem size_part (writes : List FieldWrite) :
    Layout.size .message ((writes.map part).map Prod.fst) (Parts.joined (writes.map part)).length =
      messageSize writes := by
  rw [Layout.size, Layout.tableSize, isBig_part, length_joined, List.length_map, List.length_map]
  rfl

/-- A value that is written alone is written anywhere. -/
theorem Succeeds.puts {tag : UInt16} {d : Datum} (h : (value tag d).Succeeds) :
    Puts d.write (value tag d).bytes := by
  obtain ⟨n, alone, halone, hbytes⟩ := h.write_eq
  obtain ⟨e, -, rfl, rfl⟩ := d.appends.ok halone
  have he : (value tag d).bytes = e := hbytes.trans (Buffer.bytes_write {} e)
  rw [he]
  exact puts_of_empty d.relocatable halone

/-- An inner builder that is finished alone is finished anywhere. -/
theorem Succeeds.makes {tag : UInt16} {j : Layout} {inner : Run Datum j}
    (h : (nested tag inner).Succeeds) :
    inner.Makes Datum.write (nested tag inner).bytes := fun buf => by
  obtain ⟨n, hn⟩ := h
  have hrun : inner.build Datum.write {} =
      (.finished (.ok n), (inner.build Datum.write {}).2.1, (inner.build Datum.write {}).2.2) := by
    rw [← hn]
  obtain ⟨-, -, e, hbytes, rfl, -⟩ :=
    Run.exec_ok Datum.appends inner (Frame.holds_openAt j {}) hrun
  have hbuild := Run.build_eq Datum.relocatable inner buf
  rw [hn, hbytes] at hbuild
  rw [bytes, hbytes]
  exact ⟨_, hbuild⟩

/-- **A run of writes places them.** -/
theorem places (hwrites : ∀ w ∈ writes, w.Succeeds) :
    (Run.ofWrites writes).Places Datum.write (writes.map part) := by
  induction writes with
  | nil => exact .finish
  | cons w writes ih =>
    obtain ⟨hw, hrest⟩ := List.forall_mem_cons.1 hwrites
    cases w with
    | value tag d => exact .write hw.puts (ih hrest)
    | nested tag inner => exact .nest hw.makes (ih hrest)

/-- **The view shows what the writes make**: their tags in ascending order, and under each of them
what is read of the bytes of its write alone. -/
structure Shows (m : MessageView) (writes : List FieldWrite) : Prop where
  ascending : m.table.tags.Pairwise (· < ·)
  tags : m.table.tags.Perm (writes.map tag)
  field : ∀ w ∈ writes, ∀ k : Reading,
    m.read? k.run w.tag = (k.run (ofBytes w.bytes)).map fun r => some r.1

/-- What is made of the writes is opened by a view that shows them. -/
theorem shows_of_made (hwrites : ∀ w ∈ writes, w.Succeeds)
    (h : Layout.Made .message (writes.map part) e) :
    ∃ m : MessageView, m.Form e ∧ Shows m writes := by
  obtain ⟨m, hform, hopens⟩ := h.opens
  obtain ⟨hasc, htags, -⟩ := hopens.lists
  rw [Parts.map_fst_stops, map_fst_part] at htags
  refine ⟨m, hform, hasc, htags, fun w hw k => ?_⟩
  obtain ⟨v, hv⟩ := (hwrites w hw).form
  obtain ⟨j, hj⟩ := List.mem_iff_getElem?.1 (List.mem_map_of_mem (f := part) hw)
  obtain ⟨rest, hpart⟩ := hopens.part? hj
  have hfield : m.field? w.tag = some (ofBytes w.bytes ++ rest) := hpart
  rw [MessageView.read?_eq_of_field? k.run hfield, k.run_append hv]

/-- **Two views that show the same writes in any order cannot be told apart.** -/
theorem Shows.eq_of_perm (h : Shows m writes) (h' : Shows m' writes')
    (hperm : writes.Perm writes') :
    m.table.tags = m'.table.tags ∧
      ∀ (k : Reading) (tag : UInt16), m.read? k.run tag = m'.read? k.run tag := by
  have htags : m.table.tags = m'.table.tags :=
    (h.tags.trans ((hperm.map tag).trans h'.tags.symm)).eq_of_pairwise
      (fun _ _ _ _ hab hba => absurd hab (UInt16.lt_asymm hba)) h.ascending h'.ascending
  refine ⟨htags, fun k tag => ?_⟩
  by_cases htag : tag ∈ m.table.tags
  · obtain ⟨w, hw, rfl⟩ := List.mem_map.1 (h.tags.mem_iff.1 htag)
    rw [h.field w hw k, h'.field w (hperm.mem_iff.1 hw) k]
  · rw [MessageView.read?_of_not_mem h.ascending htag,
      MessageView.read?_of_not_mem h'.ascending (htags ▸ htag)]

/-- **What comes of a message** to which the writes are made: it is refused for the smallest tag
that is repeated, or there is none and a view that shows the writes is read at the end of the
buffer. -/
theorem build_cases (hwrites : ∀ w ∈ writes, w.Succeeds) (hsize : messageSize writes ≤ maxSize)
    (buf : Buffer) :
    (∃ t events, LeastRepeated t (writes.map tag) ∧
      (Run.ofWrites writes).build Datum.write buf =
        (.finished (.error (.duplicateTag t)), buf, events)) ∨
    ∃ made events m, (writes.map tag).Nodup ∧
      (Run.ofWrites writes).build Datum.write buf =
        (.finished (.ok (messageSize writes)), made, events) ∧
      readMessage made.tail = .ok (m, messageSize writes) ∧
      readTag made.tail = .ok (.ofMessage (isBig writes)) ∧ Shows m writes := by
  have hplaces := places hwrites
  rw [← size_part] at hsize
  by_cases hnodup : (writes.map tag).Nodup
  · rw [← map_fst_part] at hnodup
    obtain ⟨e, hmade, hmakes⟩ := hplaces.makes Datum.relocatable hnodup hsize
    obtain ⟨events, hbuild⟩ := hmakes buf
    obtain ⟨m, hform, hshows⟩ := shows_of_made hwrites hmade
    have hlen : e.length = messageSize writes := hmade.length.trans (size_part writes)
    have htail : (buf.write e).tail = ofBytes e ++ buf.tail := rfl
    rw [map_fst_part] at hnodup
    refine .inr ⟨buf.write e, events, m, hnodup, hlen ▸ hbuild, ?_, ?_, hshows⟩
    · rw [htail, hform.read, hlen]
    · obtain ⟨sorted, hperm, -, g, g', rfl, -⟩ := hmade.closed
      rw [htail, ofBytes_concat, List.cons_append, readTag_cons, Parts.needsBig_message hperm,
        isBig_part]
  · rw [← map_fst_part] at hnodup
    obtain ⟨t, hleast, hrefused⟩ := hplaces.repeated hnodup (Layout.lt_of_size_le hsize)
    obtain ⟨events, hbuild⟩ := hrefused buf
    exact .inl ⟨t, events, map_fst_part writes ▸ hleast, hbuild⟩

end FieldWrite

open FieldWrite in
/-- **The order of the fields does not matter.** Take writes that succeed by themselves, values of
builtin types and inner builders that are finished, and make them in two orders, which together are
not too large for a message. In both orders

* the message is refused for the same tag, and the buffer is as before; this is so exactly if a tag
  is repeated; or
* the message is finished with the size that was calculated and under the same type tag, the two
  tables list the same tags in the same order, and every reader gives the same result under every
  tag. Views of inner lists and messages are such results, so nothing inside them differs either. -/
theorem order_irrelevant {writes writes' : List FieldWrite} (hperm : writes.Perm writes')
    (hwrites : ∀ w ∈ writes, w.Succeeds) (hsize : messageSize writes ≤ maxSize) (buf : Buffer) :
    (∃ t events events', LeastRepeated t (writes.map tag) ∧
      (Run.ofWrites writes).build Datum.write buf =
        (.finished (.error (.duplicateTag t)), buf, events) ∧
      (Run.ofWrites writes').build Datum.write buf =
        (.finished (.error (.duplicateTag t)), buf, events')) ∨
    (writes.map tag).Nodup ∧ ∃ big made made' events events' m m',
      (Run.ofWrites writes).build Datum.write buf =
        (.finished (.ok (messageSize writes)), made, events) ∧
      (Run.ofWrites writes').build Datum.write buf =
        (.finished (.ok (messageSize writes)), made', events') ∧
      readTag made.tail = .ok (.ofMessage big) ∧ readTag made'.tail = .ok (.ofMessage big) ∧
      readMessage made.tail = .ok (m, messageSize writes) ∧
      readMessage made'.tail = .ok (m', messageSize writes) ∧
      m.table.tags = m'.table.tags ∧
      ∀ (k : Reading) (tag : UInt16), m.read? k.run tag = m'.read? k.run tag := by
  have hwrites' : ∀ w ∈ writes', w.Succeeds := fun w hw => hwrites w (hperm.mem_iff.2 hw)
  have hsize' : messageSize writes' ≤ maxSize := messageSize_perm hperm ▸ hsize
  rcases build_cases hwrites hsize buf with
    ⟨t, events, hleast, hbuild⟩ | ⟨made, events, m, hnodup, hbuild, hread, htag, hshows⟩
  · rcases build_cases hwrites' hsize' buf with
      ⟨t', events', hleast', hbuild'⟩ | ⟨_, _, _, hnodup', -⟩
    · obtain rfl := (hleast.perm (hperm.map tag)).unique hleast'
      exact .inl ⟨t, events, events', hleast, hbuild, hbuild'⟩
    · exact absurd ((hperm.map tag).nodup_iff.2 hnodup') hleast.not_nodup
  · rcases build_cases hwrites' hsize' buf with
      ⟨t', events', hleast', -⟩ | ⟨made', events', m', -, hbuild', hread', htag', hshows'⟩
    · exact absurd ((hperm.map tag).nodup_iff.1 hnodup) hleast'.not_nodup
    · rw [← messageSize_perm hperm] at hbuild' hread'
      rw [← isBig_perm hperm] at htag'
      obtain ⟨htags, hfields⟩ := hshows.eq_of_perm hshows' hperm
      exact .inr ⟨hnodup, isBig writes, made, made', events, events', m, m', hbuild, hbuild', htag,
        htag', hread, hread', htags, hfields⟩

/-- A number under a large tag, a list and a text. -/
def FieldWrite.sample : List FieldWrite :=
  [.value 300 (.byte 7),
    .nested 2 (j := .list) (.write () [.bool true, .byte 5] .finish),
    .value 5 (.string "two")]

/-- In two orders the bytes differ, and nothing that is read does. -/
theorem order_irrelevant_sample :
    ∃ made made' events events' m m',
      (Run.ofWrites FieldWrite.sample).build Datum.write {} =
        (.finished (.ok 39), made, events) ∧
      (Run.ofWrites FieldWrite.sample.reverse).build Datum.write {} =
        (.finished (.ok 39), made', events') ∧
      made ≠ made' ∧ readMessage made.tail = .ok (m, 39) ∧ readMessage made'.tail = .ok (m', 39) ∧
      m.table.tags = m'.table.tags ∧
      ∀ (k : Reading) (tag : UInt16), m.read? k.run tag = m'.read? k.run tag := by
  have hwrites : ∀ w ∈ FieldWrite.sample, w.Succeeds := by
    simp only [FieldWrite.sample, List.forall_mem_cons]
    exact ⟨⟨2, by cbv⟩, ⟨10, by cbv⟩, ⟨6, by cbv⟩, nofun⟩
  have hsize : FieldWrite.messageSize FieldWrite.sample = 39 := by cbv
  have hperm : FieldWrite.sample.Perm FieldWrite.sample.reverse :=
    (List.reverse_perm FieldWrite.sample).symm
  have hdiffer : ((Run.ofWrites FieldWrite.sample).build Datum.write {}).2.1 ≠
      ((Run.ofWrites FieldWrite.sample.reverse).build Datum.write {}).2.1 := by
    have h : ((Run.ofWrites FieldWrite.sample).build Datum.write {}).2.1.tail[38]? =
      some 7 := by cbv
    have h' : ((Run.ofWrites FieldWrite.sample.reverse).build Datum.write {}).2.1.tail[38]? =
      some 116 := by cbv
    intro heq
    rw [heq, h'] at h
    cases h
  rcases order_irrelevant hperm hwrites (by rw [hsize]; decide) {} with
    ⟨t, -, -, hleast, -⟩ | ⟨-, -, made, made', events, events', m, m', hbuild, hbuild', -, -, hread,
      hread', htags, hfields⟩
  · exact absurd (by decide) hleast.not_nodup
  · rw [hbuild, hbuild'] at hdiffer
    rw [hsize] at hbuild hbuild' hread hread'
    exact ⟨made, made', events, events', m, m', hbuild, hbuild', hdiffer, hread, hread', htags,
      hfields⟩

end Backwire.Wire
