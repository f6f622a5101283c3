import Backwire.Proofs.Wire.ReadBack
import Backwire.Proofs.Wire.Relocation

/-!
# Messages that are taken back

A message that was given two values under one tag cannot be finished. It is taken back, and then
nothing tells that it was ever opened: the buffer is as before, the outer builder has recorded
nothing more, and whatever is done next gives the same.

This rests on one law. No step of a run, nor of a run inside it, touches what stood in the buffer
when its builder was opened. `Writer.Extends` says this of a writer, and `Run.exec_ending` says what
a run has come to when only its last step is left: the bytes in front are still there, and what the
builder holds are the places of what was recorded. The last step of a message is then a question
about its tags alone (`Frame.finish_message_cases`).
-/

namespace Backwire.Wire

variable {α β : Type}

/-! ### Writers that only add -/

/-- **The writer only adds to the buffer**, also when it fails. -/
def Writer.Extends (w : Writer α) : Prop := ∀ buf : Buffer, buf.bytes <+: (w.exec buf).2.bytes

namespace Writer.Extends

theorem pure (a : α) : Extends (Pure.pure a) := fun _ => List.prefix_rfl

theorem get : Extends (MonadState.get : Writer Buffer) := fun _ => List.prefix_rfl

theorem bind {w : Writer α} {f : α → Writer β} (hw : Extends w) (hf : ∀ a, Extends (f a)) :
    Extends (w >>= f) := by
  intro buf
  have hfirst := hw buf
  change buf.bytes <+: (Writer.exec (EStateM.bind w f) buf).2.bytes
  unfold Writer.exec EStateM.bind at *
  cases hrun : w buf with
  | ok a buf' =>
    rw [hrun] at hfirst
    exact hfirst.trans (hf a buf')
  | error e buf' =>
    rw [hrun] at hfirst
    exact hfirst

theorem ofExcept (r : Except WireError α) : Extends (Writer.ofExcept r) := by
  intro buf
  cases r <;> exact List.prefix_rfl

/-- Changing the end of the buffer and returning what was known before. -/
theorem changing {f : Buffer → Buffer} (hf : ∀ buf : Buffer, buf.bytes <+: (f buf).bytes) (a : α) :
    Extends (do modify f; return a) := hf

end Writer.Extends

/-- A writer that adds a form or nothing only adds. -/
theorem Appends.extends {w : Writer Nat} {F : List UInt8 → Prop} (h : Appends w F) :
    w.Extends := by
  intro buf
  unfold Writer.exec
  rcases h buf with ⟨e, -, hok⟩ | ⟨err, herr⟩
  · rw [hok]
    exact ⟨e, (buf.bytes_write e).symm⟩
  · rw [herr]

theorem extends_writeStructTrailer (n : Nat) : (writeStructTrailer n).Extends := by
  refine (Writer.Extends.ofExcept _).bind fun total => .changing (fun buf => ?_) total
  have hvarint : (buf.writeVarint n).bytes = buf.bytes ++ (Varint.encode n).reverse := by
    simp [Buffer.bytes, Tail.toBytes]
  rw [Buffer.bytes_push, hvarint, List.append_assoc]
  exact List.prefix_append _ _

theorem extends_writeStruct {fields : Writer Unit} (h : fields.Extends) :
    (writeStruct fields).Extends :=
  Writer.Extends.get.bind fun _ => h.bind fun _ => Writer.Extends.get.bind fun _ =>
    (extends_writeStructTrailer _).bind fun _ => .pure _

theorem Record.extends_writeFields (r : Record) : r.writeFields.Extends := by
  induction r with
  | empty => exact .pure ()
  | datum d rest ih => exact d.appends.extends.bind fun _ => ih
  | record inner rest ihInner ih => exact (extends_writeStruct ihInner).bind fun _ => ih

/-- Values of builtin types and structs only add. -/
theorem extends_cell (c : Sample.Cell) : c.write.Extends := by
  cases c with
  | datum d => exact d.appends.extends
  | record r => exact extends_writeStruct r.extends_writeFields

/-! ### Tags that were recorded twice -/

/-- The smallest tag that stands more than once in a list. -/
def LeastRepeated (t : UInt16) (tags : List UInt16) : Prop :=
  2 ≤ tags.count t ∧ ∀ u, 2 ≤ tags.count u → t ≤ u

theorem LeastRepeated.perm {t : UInt16} {tags tags' : List UInt16} (h : LeastRepeated t tags)
    (hperm : tags.Perm tags') : LeastRepeated t tags' := by
  obtain ⟨htwice, hleast⟩ := h
  refine ⟨hperm.count_eq t ▸ htwice, fun u hu => hleast u ?_⟩
  rwa [hperm.count_eq u]

/-- There is only one. -/
theorem LeastRepeated.unique {t t' : UInt16} {tags : List UInt16} (h : LeastRepeated t tags)
    (h' : LeastRepeated t' tags) : t = t' :=
  UInt16.le_antisymm (h.2 t' h'.1) (h'.2 t h.1)

theorem LeastRepeated.not_nodup {t : UInt16} {tags : List UInt16} (h : LeastRepeated t tags) :
    ¬tags.Nodup := by
  intro hnodup
  have hone := List.nodup_iff_count_le_one.1 hnodup t
  exact absurd h.1 (Nat.not_le.2 (Nat.lt_succ_of_le hone))

/-- Where entries ascend, equal tags stand next to each other, those of the smallest tag first. -/
theorem Frame.leastRepeated_of_firstRepeated {entries : List Entry} {t : UInt16}
    (hasc : entries.Pairwise fun a b => a.tag ≤ b.tag) (h : firstRepeated entries = some t) :
    LeastRepeated t (entries.map Entry.tag) := by
  induction entries with
  | nil => cases h
  | cons a rest ih =>
    cases rest with
    | nil => cases h
    | cons b rest =>
      have hle : ∀ u ∈ (b :: rest).map Entry.tag, a.tag ≤ u :=
        List.forall_mem_map.2 fun c hc => List.rel_of_pairwise_cons hasc hc
      unfold firstRepeated at h
      by_cases heq : a.tag = b.tag
      · rw [if_pos heq] at h
        cases h
        refine ⟨by simp [← heq], fun u hu => ?_⟩
        have hmem : u ∈ (a :: b :: rest).map Entry.tag :=
          List.count_pos_iff.1 (Nat.lt_of_lt_of_le Nat.two_pos hu)
        rcases List.mem_cons.1 hmem with rfl | hmem
        · exact UInt16.le_refl _
        · exact hle u hmem
      · rw [if_neg heq] at h
        obtain ⟨htwice, hleast⟩ := ih hasc.of_cons h
        -- the first tag is smaller than all others, so it stands only once
        have hnot : a.tag ∉ (b :: rest).map Entry.tag := by
          intro hmem
          have hba : b.tag ≤ a.tag := by
            rcases List.mem_cons.1 hmem with h | h
            · exact absurd h heq
            · obtain ⟨c, hc, hca⟩ := List.mem_map.1 h
              exact hca ▸ List.rel_of_pairwise_cons hasc.of_cons hc
          exact heq (UInt16.le_antisymm (hle _ List.mem_cons_self) hba)
        refine ⟨Nat.le_trans htwice (List.count_le_count_cons), fun u hu => ?_⟩
        by_cases hua : u = a.tag
        · subst hua
          rw [List.map_cons, List.count_cons_self, List.count_eq_zero_of_not_mem hnot] at hu
          omega
        · rw [List.map_cons, List.count_cons_of_ne (Ne.symm hua)] at hu
          exact hleast u hu

/-! ### The last step -/

theorem tableTrailer_error {data table : Nat} {e : WireError}
    (h : tableTrailer data table = .error e) : ∃ n, e = .sizeExceeded n := by
  simp only [tableTrailer, totalSize, bind_eq_error_iff, regionSize_eq_error_iff] at h
  rcases h with ⟨rfl, -⟩ | ⟨_, -, ⟨rfl, -⟩ | ⟨_, -, ⟨rfl, -⟩ | ⟨_, -, ⟨rfl, -⟩ | ⟨_, -, h⟩⟩⟩⟩
  · exact ⟨_, rfl⟩
  · exact ⟨_, rfl⟩
  · exact ⟨_, rfl⟩
  · exact ⟨_, rfl⟩
  · cases h

/-- Where data cannot be closed, it is too large. -/
theorem close_error {n : Nat} {table : List UInt8} {tag : Tag} {buf buf' : Buffer} {e : WireError}
    (h : (do let k ← writeTable n table tag; return n + k : Writer Nat) buf = .error e buf') :
    ∃ m, e = .sizeExceeded m := by
  cases htrailer : tableTrailer n table.length with
  | ok k =>
    simp only [writeTable, htrailer] at h
    cases h
  | error e' =>
    simp only [writeTable, htrailer] at h
    cases h
    exact tableTrailer_error htrailer

variable {k : Layout} {enc : α → Writer Nat}

/-- The last step of a run. -/
def Run.ending : {k : Layout} → Run α k → Run α k
  | _, .finish => .finish
  | _, .abandon => .abandon
  | _, .write _ _ rest => rest.ending
  | _, .nest _ _ rest => rest.ending

theorem Run.ending_cases (run : Run α k) : run.ending = .finish ∨ run.ending = .abandon := by
  induction run with
  | finish => exact .inl rfl
  | abandon => exact .inr rfl
  | write slot values rest ih => exact ih
  | nest slot inner rest ihInner ih => exact ih

namespace Frame

variable {f : Frame k} {buf : Buffer} {base data : List UInt8} {slot : k.Slot}

/-- The last step leaves what was there before the builder was opened. -/
theorem Holds.ending_keeps (run : Run α k) (h : f.Holds buf base data) :
    ∃ more, (run.ending.exec enc f buf).2.1.bytes = base ++ more := by
  rcases run.ending_cases with hend | hend
  · rw [hend, Run.exec]
    rcases h.finish_cases with ⟨trailer, -, hok⟩ | ⟨err, buf', data', herr, hbytes⟩
    · rw [hok]
      exact ⟨_, (h.write trailer).bytes⟩
    · rw [herr]
      exact ⟨data', hbytes⟩
  · rw [hend]
    exact ⟨data, h.bytes⟩

/-- The tags of the sorted fields are those of the fields. -/
theorem perm_tags_sorted (f : Frame .message) :
    (f.sorted.map Entry.tag).Perm (f.entries.map Prod.fst) := by
  have hsorted : f.sorted.Perm _ := List.mergeSort_perm _ _
  have htags := hsorted.map Entry.tag
  rwa [List.map_map] at htags

/-- Where no tag is repeated, the data is closed. -/
theorem finish_of_none {f : Frame .message} (h : firstRepeated f.sorted = none) :
    f.finish buf = (do
      let n ← writeMessageTable (buf.size - f.start) f.sorted
      return buf.size - f.start + n : Writer Nat) buf := by
  simp only [finish, h]
  rfl

/-- **Finishing a message** is refused exactly if a tag was recorded twice: then the smallest such
tag is named, and what was written since the message was opened is taken back. -/
theorem Holds.finish_message_cases {f : Frame .message} (h : f.Holds buf base data) :
    (∃ t, LeastRepeated t (f.entries.map Prod.fst) ∧
      f.finish buf = .error (.duplicateTag t) (.ofBytes base)) ∨
    (f.entries.map Prod.fst).Nodup ∧ ∀ t buf', f.finish buf ≠ .error (.duplicateTag t) buf' := by
  have htags := f.perm_tags_sorted
  cases hrepeated : firstRepeated f.sorted with
  | some t =>
    have hbase : buf.truncate f.start = .ofBytes base := Buffer.ext_bytes (by
      rw [Buffer.bytes_truncate, h.bytes, h.start, List.take_left' rfl, Buffer.bytes_ofBytes])
    refine .inl ⟨t, (leastRepeated_of_firstRepeated f.sorted_ascending hrepeated).perm htags, ?_⟩
    rw [← hbase]
    simp only [finish, hrepeated]
    rfl
  | none =>
    have hasc := ascending_of_firstRepeated f.sorted_ascending hrepeated
    refine .inr ⟨htags.nodup_iff.1 (hasc.imp UInt16.ne_of_lt), fun t buf' hfinish => ?_⟩
    rw [finish_of_none hrepeated] at hfinish
    obtain ⟨m, hm⟩ := close_error hfinish
    cases hm

/-! ### Steps -/

/-- **Writing one value** adds to the data, and records a place or nothing. -/
theorem Holds.write_extends (henc : ∀ a, (enc a).Extends) (slot : k.Slot) (a : α)
    (h : f.Holds buf base data) :
    ∃ result f' buf' data', f.write enc slot a buf = (result, f', buf') ∧
      f'.Holds buf' base data' ∧
      ((∃ stop, result = .ok () ∧ f' = f.record slot stop) ∨ ∃ err, result = .error err ∧ f' = f) := by
  obtain ⟨more, hmore⟩ := henc a buf
  unfold Writer.exec at hmore
  unfold Frame.write
  cases hrun : enc a buf with
  | error err buf' =>
    rw [hrun] at hmore
    exact ⟨.error err, f, buf', data ++ more, rfl, h.extend hmore.symm, .inr ⟨err, rfl, rfl⟩⟩
  | ok n buf' =>
    rw [hrun] at hmore
    have hholds := h.extend hmore.symm
    dsimp only
    cases hstop : relativeStop f.start buf'.size with
    | error err => exact ⟨.error err, f, buf', _, rfl, hholds, .inr ⟨err, rfl, rfl⟩⟩
    | ok stop =>
      have hlen : stop = (data ++ more).length := by
        rw [(relativeStop_eq_ok_iff.1 hstop).1, hholds.size, h.start, Nat.add_sub_cancel_left]
      subst hlen
      exact ⟨.ok (), _, buf', _, rfl, hholds.record slot, .inl ⟨_, rfl, rfl⟩⟩

/-- **Writing values in turn** adds to the data, and the builder holds the places of those that are
recorded, whatever is recorded later. -/
theorem Holds.writeAll_extends (henc : ∀ a, (enc a).Extends) (slot : k.Slot) (values : List α)
    (h : f.Holds buf base data) :
    ∃ result f' buf' data', f.writeAll enc slot values buf = (result, f', buf') ∧
      f'.Holds buf' base data' ∧
      ∀ later, f.entries.map Prod.fst ++ (f.recorded enc slot values buf later).slots =
        f'.entries.map Prod.fst ++ later.slots := by
  induction values generalizing f buf data with
  | nil => exact ⟨.ok (), f, buf, data, rfl, h, fun _ => rfl⟩
  | cons a values ih =>
    obtain ⟨result, f₁, buf₁, data₁, hwrite, h₁, hresult⟩ := h.write_extends henc slot a
    rcases hresult with ⟨stop, rfl, rfl⟩ | ⟨err, rfl, rfl⟩
    · obtain ⟨result, f', buf', data', hall, hholds, hslots⟩ := ih h₁
      refine ⟨result, f', buf', data', ?_, hholds, fun later => ?_⟩
      · rw [writeAll, hwrite]
        exact hall
      · rw [Frame.recorded, hwrite, ← hslots later]
        simp [Contents.slots, Frame.record]
    · refine ⟨.error err, f₁, buf₁, data₁, ?_, h₁, fun later => ?_⟩
      · rw [writeAll, hwrite]
      · rw [Frame.recorded, hwrite]

end Frame

/-! ### Runs -/

/-- **What a run has come to when only its last step is left**: the bytes in front are still there,
and the builder holds the places of what was recorded. -/
theorem Run.exec_ending (henc : ∀ a, (enc a).Extends) (run : Run α k) {f : Frame k} {buf : Buffer}
    {base data : List UInt8} (h : f.Holds buf base data) :
    ∃ f' buf' data' events, f'.Holds buf' base data' ∧
      f'.entries.map Prod.fst = f.entries.map Prod.fst ++ (run.recorded enc f buf).slots ∧
      run.exec enc f buf =
        ((run.ending.exec enc f' buf').1, (run.ending.exec enc f' buf').2.1, events) := by
  induction run generalizing buf base data with
  | finish => exact ⟨f, buf, data, _, h, (List.append_nil _).symm, rfl⟩
  | abandon => exact ⟨f, buf, data, _, h, (List.append_nil _).symm, rfl⟩
  | write slot values rest ih =>
    obtain ⟨result, f₁, buf₁, data₁, hall, h₁, hslots⟩ := h.writeAll_extends henc slot values
    obtain ⟨f', buf', data', events, hholds, hentries, hrest⟩ := ih h₁
    refine ⟨f', buf', data', _, hholds, ?_, exec_write hall hrest⟩
    rw [hentries, recorded_write hall, hslots]
  | nest slot inner rest ihInner ih =>
    -- the inner builder only adds, also by its last step
    obtain ⟨f₁, buf₁, data₁, innerEvents, h₁, -, hinner⟩ := ihInner (Frame.holds_openAt _ buf)
    obtain ⟨more, hmore⟩ := h₁.ending_keeps inner
    have hholds := h.extend hmore
    rcases hholds.adopt_cases slot (inner.ending.exec enc f₁ buf₁).1 with
      ⟨n, hfinished, hadopt⟩ | ⟨outcome, hne, hadopt⟩
    · obtain ⟨f', buf', data', events, hholds', hentries, hrest⟩ := ih (hholds.record slot)
      refine ⟨f', buf', data', _, hholds', ?_, exec_nest hinner hadopt hrest⟩
      rw [hentries, recorded_nest hinner hadopt]
      simp [Contents.slots, Frame.record]
    · obtain ⟨f', buf', data', events, hholds', hentries, hrest⟩ := ih hholds
      refine ⟨f', buf', data', _, hholds', ?_, exec_nest hinner hadopt hrest⟩
      rw [hentries, recorded_nest_of_ne hinner hadopt hne]

/-- **A rejected message is invisible.** Take any message that is finished in the end, whatever is
done with it and with the builders inside it, over values whose writers only add to the buffer.

* If a tag was recorded more than once, the message is refused and the smallest such tag is named.
  The buffer is as it was when the message was opened, and an outer builder of either kind, in
  whatever state this is, has recorded nothing: what is done with it next gives the same events, the
  same bytes and the same records as if there had been no message.
* If no tag was recorded more than once, the message is not refused for a repeated tag. -/
theorem rejected_message_invisible (henc : ∀ a, (enc a).Extends) (run : Run α .message)
    (hrun : run.ending = .finish) (buf : Buffer) :
    let tags := (run.recorded enc (.openAt .message buf) buf).slots
    ((∃ t, 2 ≤ tags.count t) →
      ∃ t events, LeastRepeated t tags ∧
        run.build enc buf = (.finished (.error (.duplicateTag t)), buf, events) ∧
        ∀ {j : Layout} (slot : j.Slot) (rest : Run α j) (f : Frame j),
          ((Run.nest slot run rest).exec enc f buf =
            let (last, buf', later) := rest.exec enc f buf
            (last, buf', .opened .message ::
              (events ++ .closed (.finished (.error (.duplicateTag t))) f.entries.length :: later))) ∧
          (Run.nest slot run rest).recorded enc f buf = rest.recorded enc f buf) ∧
    ((∀ t, tags.count t < 2) →
      ∀ t, (run.build enc buf).1 ≠ .finished (.error (.duplicateTag t))) := by
  intro tags
  obtain ⟨f', buf', data', events, hholds, hentries, hexec⟩ :=
    run.exec_ending henc (Frame.holds_openAt .message buf)
  have htags : f'.entries.map Prod.fst = tags := hentries
  rw [hrun, Run.exec] at hexec
  have hbuf : Buffer.ofBytes buf.bytes = buf := Buffer.ext_bytes (Buffer.bytes_ofBytes _)
  rcases hholds.finish_message_cases with ⟨t, hleast, hfinish⟩ | ⟨hnodup, hfinish⟩
  · rw [htags] at hleast
    rw [hfinish, hbuf] at hexec
    constructor
    · rintro -
      refine ⟨t, events, hleast, hexec, fun slot rest f => ⟨?_, ?_⟩⟩
      · exact Run.exec_nest hexec rfl rfl
      · refine Run.recorded_nest_of_ne hexec rfl fun n hn => ?_
        cases hn
    · intro hnone
      exact absurd hleast.1 (Nat.not_le.2 (hnone t))
  · rw [htags, List.nodup_iff_count_le_one] at hnodup
    constructor
    · rintro ⟨t, ht⟩
      exact absurd ht (Nat.not_le.2 (Nat.lt_succ_of_le (hnodup t)))
    · intro _ t h
      change (run.exec enc (.openAt .message buf) buf).1 = _ at h
      rw [hexec] at h
      cases hlast : f'.finish buf' with
      | ok n buf'' =>
        rw [hlast] at h
        cases h
      | error err buf'' =>
        rw [hlast] at h
        cases h
        exact hfinish t buf'' hlast

/-- A message behind other bytes, in which an inner message is abandoned and two tags are used
twice. -/
def Run.twice : Run Sample.Cell .message :=
  .write (k := .message) 7 [.datum (.bool true)] (.nest (k := .message) 9 (j := .message)
    (.write (k := .message) 1 [.datum (.byte 9)] .abandon) (.nest (k := .message) 2 (j := .list)
      (.write () [.datum (.byte 3)] .finish) (.write (k := .message) 7 [.record .empty]
        (.write (k := .message) 2 [.datum (.string "two")] .finish))))

theorem rejected_message_invisible_twice :
    Run.twice.ending = .finish ∧
    ∃ events, Run.twice.build Sample.Cell.write (.ofBytes [107, 101, 101, 112]) =
      (.finished (.error (.duplicateTag 2)), .ofBytes [107, 101, 101, 112], events) := by
  have htags : (Run.twice.recorded Sample.Cell.write
      (.openAt .message (.ofBytes [107, 101, 101, 112])) (.ofBytes [107, 101, 101, 112])).slots =
        [7, 2, 7, 2] := by cbv
  have hmain := (rejected_message_invisible extends_cell Run.twice rfl
    (.ofBytes [107, 101, 101, 112])).1
  rw [htags] at hmain
  obtain ⟨t, events, hleast, hbuild, -⟩ := hmain ⟨2, by decide⟩
  obtain rfl : t = 2 := by
    have hmem : t ∈ [7, 2, 7, 2] := List.count_pos_iff.1 (Nat.lt_of_lt_of_le Nat.two_pos hleast.1)
    have hle : t ≤ 2 := hleast.2 2 (by decide)
    simp only [List.mem_cons, List.not_mem_nil, or_false] at hmem
    rcases hmem with rfl | rfl | rfl | rfl
    · exact absurd hle (by decide)
    · rfl
    · exact absurd hle (by decide)
    · rfl
  exact ⟨rfl, events, hbuild⟩

end Backwire.Wire
