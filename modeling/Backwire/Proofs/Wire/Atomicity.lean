import Backwire.Proofs.Wire.Assembly
import Backwire.Proofs.Wire.RoundTrip
import Backwire.Proofs.Wire.Struct

/-!
# All of a value or nothing

A writer adds as many bytes as it returns, behind what the buffer held, or it fails and leaves the
buffer as it was (`Atomic`). Where the size is settled before the first byte is written, there is
nothing to take back. A list that is written at once is the one exception: it fails in the middle,
and what its elements have left is cut off again, which restores the buffer as long as the elements
only add to it (`atomic_writeList`).

What is refused is refused for its size alone, and that is the size of what would have been written:
the data, the table, the sizes of both, the closing zero byte and the tag (`TooLarge`).
-/

namespace Backwire.Wire

open Tail

variable {α : Type} {w : Writer Nat} {write : α → Writer Nat} {items : List α} {buf buf' : Buffer}
  {parts : List Nat}

/-- **The writer adds as many bytes as it returns, or fails and adds none.** -/
structure Atomic (w : Writer Nat) : Prop where
  ok : ∀ {buf buf' : Buffer} {n : Nat}, w buf = .ok n buf' →
    ∃ added : List UInt8, added.length = n ∧ buf'.bytes = buf.bytes ++ added
  error : ∀ {buf buf' : Buffer} {e : WireError}, w buf = .error e buf' → buf' = buf

theorem Appends.atomic {F : List UInt8 → Prop} (h : Appends w F) : Atomic w := by
  refine ⟨fun hok => ?_, h.error⟩
  obtain ⟨e, -, hlen, rfl⟩ := h.ok hok
  exact ⟨e, hlen, Buffer.bytes_write _ e⟩

theorem Atomic.extends (h : Atomic w) : w.Extends := by
  intro buf
  unfold Writer.exec
  cases hrun : w buf with
  | ok n buf' =>
    obtain ⟨added, -, hadded⟩ := h.ok hrun
    exact ⟨added, hadded.symm⟩
  | error e buf' => rw [h.error hrun]

/-! ### What is refused -/

/-- **A part of a value, or all of its parts together**, are larger than a value may be. -/
def TooLarge (parts : List Nat) : Prop := (∃ n ∈ parts, maxSize < n) ∨ maxSize < total parts

/-- **The writer fails exactly under a condition**, and then because of a size. -/
structure RefusesIff (w : Writer Nat) (P : Prop) : Prop where
  error_iff : ∀ buf : Buffer, (∃ e buf', w buf = .error e buf') ↔ P
  size : ∀ {buf buf' : Buffer} {e : WireError}, w buf = .error e buf' →
    ∃ size, e = .sizeExceeded size

theorem le_total {n : Nat} (h : n ∈ parts) : n ≤ total parts := by
  induction parts with
  | nil => cases h
  | cons m rest ih =>
    rw [total]
    rcases List.mem_cons.1 h with rfl | h
    · exact Nat.le_add_right _ _
    · exact Nat.le_trans (ih h) (Nat.le_add_left _ _)

/-- No part is larger than the whole. -/
theorem tooLarge_iff : TooLarge parts ↔ maxSize < total parts := by
  refine ⟨fun h => ?_, .inr⟩
  rcases h with ⟨n, hn, hlarge⟩ | h
  · exact Nat.lt_of_lt_of_le hlarge (le_total hn)
  · exact h

/-- The size of a value is settled before it is written, from the sizes of its parts. -/
theorem refusesIff_ofExcept (extent : Except WireError Nat) {f : Buffer → Buffer}
    (hextent : (∃ n, extent = .ok n) ↔ total parts ≤ maxSize) (hlarge : OnlyTooLarge extent) :
    RefusesIff (do let n ← Writer.ofExcept extent; modify f; return n) (TooLarge parts) := by
  rw [tooLarge_iff, ← Nat.not_le, ← hextent]
  cases extent with
  | ok n => exact ⟨fun buf => ⟨nofun, fun h => absurd ⟨n, rfl⟩ h⟩, nofun⟩
  | error e =>
    refine ⟨fun buf => ⟨fun _ => nofun, fun _ => ⟨e, buf, rfl⟩⟩, fun h => ?_⟩
    cases h
    exact hlarge e rfl

theorem OnlyTooLarge.tableTrailer (data table : Nat) : OnlyTooLarge (tableTrailer data table) :=
  (regionSize _ _).bind fun _ => (regionSize _ _).bind fun _ => (regionSize _ _).bind fun _ =>
    (regionSize _ _).bind fun _ => .pure _

theorem refusesIff_writeBytes (v : List UInt8) :
    RefusesIff (writeBytes v) (TooLarge [v.length, Varint.width v.length, 1]) := by
  refine refusesIff_ofExcept _ ?_ (.bytesExtent _)
  simp only [bytesExtent_eq_ok_iff, exists_eq_left, total]
  omega

theorem refusesIff_writeString (s : String) :
    RefusesIff (writeString s)
      (TooLarge [(utf8 s).length, 1, Varint.width (utf8 s).length, 1]) := by
  refine refusesIff_ofExcept (stringExtent (utf8 s).length) ?_ (.stringExtent _)
  simp only [stringExtent_eq_ok_iff, exists_eq_left, total]
  omega

theorem refusesIff_writeStructTrailer (n : Nat) :
    RefusesIff (writeStructTrailer n) (TooLarge [n, Varint.width n, 1]) := by
  refine refusesIff_ofExcept _ ?_ (.structTrailer _)
  simp only [structTrailer_eq_ok_iff, exists_eq_left, structSize, total]
  omega

/-- The parts of `n` bytes of data that are closed by a table of `table` bytes. -/
def closedParts (n table : Nat) : List Nat := [n, table, Varint.width n, Varint.width table, 1]

theorem refusesIff_writeTable (n : Nat) (table : List UInt8) (tag : Tag) :
    RefusesIff (writeTable n table tag) (TooLarge (closedParts n table.length)) := by
  refine refusesIff_ofExcept _ ?_ (.tableTrailer _ _)
  simp only [tableTrailer_eq_ok_iff, exists_eq_left, closedParts, total]
  omega

/-- **A value of a fixed number of bytes is always written.** -/
theorem Datum.exists_write {d : Datum} (h : d.builtin.isFixedSize = true) (buf : Buffer) :
    ∃ n buf', d.write buf = .ok n buf' := by
  cases d with
  | bytes _ | string _ => cases h
  | _ => exact ⟨_, _, rfl⟩

theorem refusesIff_of_isFixedSize {d : Datum} (h : d.builtin.isFixedSize = true) :
    RefusesIff d.write False := by
  have hnot {buf buf' : Buffer} {e : WireError} : d.write buf ≠ .error e buf' := by
    obtain ⟨n, buf₁, hn⟩ := d.exists_write h buf
    rw [hn]
    exact nofun
  exact ⟨fun buf => ⟨fun ⟨e, buf', he⟩ => hnot he, False.elim⟩, fun he => absurd he hnot⟩

/-! ### What a failure leaves -/

theorem atomic_writeStructTrailer (n : Nat) : Atomic (writeStructTrailer n) := by
  -- how many bytes are to be closed is only told, so any that many will do
  have happends : Appends (writeStructTrailer (List.replicate n (0 : UInt8)).length)
      fun _ => True := fun buf => by
    rcases writeStructTrailer_cases _ buf with ⟨-, trailer, -, -, hok⟩ | ⟨-, reported, herr⟩
    · exact .inl ⟨trailer, trivial, hok⟩
    · exact .inr ⟨_, herr⟩
  rw [List.length_replicate] at happends
  exact happends.atomic

theorem atomic_writeTable (n : Nat) (table : List UInt8) (tag : Tag) :
    Atomic (writeTable n table tag) := by
  have happends := appends_writeTable (List.replicate n 0) table tag
  rw [List.length_replicate] at happends
  exact happends.atomic

/-- What was added to a buffer is cut off again. -/
theorem Buffer.truncate_of_prefix (h : buf.bytes <+: buf'.bytes) : buf'.truncate buf.size = buf := by
  obtain ⟨added, hadded⟩ := h
  refine ext_bytes ?_
  rw [bytes_truncate, ← hadded, ← size_eq, List.take_left]

theorem extends_writeElements (start : Nat) (h : ∀ a ∈ items, (write a).Extends) :
    (writeElements write start items).Extends := by
  induction items with
  | nil => exact .pure []
  | cons a rest ih =>
    obtain ⟨ha, hrest⟩ := List.forall_mem_cons.1 h
    exact ha.bind fun _ => Writer.Extends.get.bind fun _ => (Writer.Extends.ofExcept _).bind fun _ =>
      (ih hrest).bind fun _ => .pure _

/-- **A list that fails is cut off** where the buffer ended before. -/
theorem eq_of_writeList_eq_error {e : WireError} (h : ∀ a ∈ items, (write a).Extends)
    (herr : writeList write items buf = .error e buf') : buf' = buf := by
  -- the list as far as it got, which is not cut off yet
  have hextends : (do
      let stops ← writeElements write buf.size items
      let size := (← get).size - buf.size
      return size + (← writeListTable size stops) : Writer Nat).Extends :=
    (extends_writeElements buf.size h).bind fun _ => Writer.Extends.get.bind fun _ =>
      (atomic_writeTable _ _ _).extends.bind fun _ => .pure _
  have hprefix := hextends buf
  unfold writeList at herr
  dsimp only at herr
  split at herr
  · cases herr
  · next e₁ buf₁ hattempt =>
    cases herr
    rw [Writer.exec, hattempt] at hprefix
    exact Buffer.truncate_of_prefix hprefix

/-- **A whole list is written or nothing of it**, if its elements only add to the buffer, those that
fail included. -/
theorem atomic_writeList (h : ∀ a ∈ items, (write a).Extends) : Atomic (writeList write items) := by
  refine ⟨fun {buf buf' n} hok => ?_, fun herr => eq_of_writeList_eq_error h herr⟩
  obtain ⟨stops, buf₁, m, helements, htrailer, rfl⟩ := writeList_eq_ok_iff.1 hok
  have hprefix := extends_writeElements buf.size h buf
  rw [Writer.exec, helements] at hprefix
  obtain ⟨data, hdata⟩ := hprefix
  obtain ⟨trailer, hlen, hbytes⟩ := (atomic_writeTable _ _ _).ok htrailer
  have hsize : buf₁.size = buf.size + data.length := by
    rw [← Buffer.size_eq, ← hdata, List.length_append, Buffer.size_eq]
  refine ⟨data ++ trailer, ?_, ?_⟩
  · rw [List.length_append, hlen, hsize, Nat.add_sub_cancel_left]
  · rw [hbytes, ← hdata, List.append_assoc]

/-! ### All writers -/

/-- **Writers add all of a value or nothing of it.** Each of them adds exactly as many bytes as it
returns, behind what the buffer held, or fails and leaves the buffer as it was; a whole list does so
if its elements only add to the buffer. A value of a fixed number of bytes is always written. A byte
string, a text, a struct, a list or a message is refused for a size, and exactly if that of some
part of it, or that of all parts together, is larger than `maxSize`. -/
theorem writers_atomic :
    ((∀ d : Datum, Atomic d.write) ∧ (∀ n, Atomic (writeStructTrailer n)) ∧
      (∀ n stops, Atomic (writeListTable n stops)) ∧
      (∀ n entries, Atomic (writeMessageTable n entries)) ∧
      ∀ {α : Type} (write : α → Writer Nat) (items : List α),
        (∀ a ∈ items, (write a).Extends) → Atomic (writeList write items)) ∧
    (∀ d : Datum, d.builtin.isFixedSize = true → RefusesIff d.write False) ∧
    (∀ v, RefusesIff (writeBytes v) (TooLarge [v.length, Varint.width v.length, 1])) ∧
    (∀ s, RefusesIff (writeString s)
      (TooLarge [(utf8 s).length, 1, Varint.width (utf8 s).length, 1])) ∧
    (∀ n, RefusesIff (writeStructTrailer n) (TooLarge [n, Varint.width n, 1])) ∧
    (∀ n stops, RefusesIff (writeListTable n stops) (TooLarge (closedParts n
      (stops.length * ListTable.entryWidth (ListTable.needsBig stops))))) ∧
    ∀ n entries, RefusesIff (writeMessageTable n entries) (TooLarge (closedParts n
      (entries.length * MessageTable.entryWidth (MessageTable.needsBig entries)))) := by
  refine ⟨⟨fun d => d.appends.atomic, atomic_writeStructTrailer, fun n stops =>
    atomic_writeTable _ _ _, fun n entries => atomic_writeTable _ _ _, fun write items =>
    atomic_writeList⟩, fun d => refusesIff_of_isFixedSize, refusesIff_writeBytes,
    refusesIff_writeString, refusesIff_writeStructTrailer, fun n stops => ?_, fun n entries => ?_⟩
  · rw [← ListTable.length_encode]
    exact refusesIff_writeTable _ _ _
  · rw [← MessageTable.length_encode]
    exact refusesIff_writeTable _ _ _

/-- Writes a byte that is no value, and fails behind it or does not. -/
def writeOrBreak (breaks : Bool) : Writer Nat := do
  modify fun buf => buf.push 7
  if breaks then throw .overflow else return 1

/-- A list of three elements of which the last one fails and leaves a byte, behind a byte of
something else; a value that is always written. -/
theorem writers_atomic_broken :
    (∀ a ∈ [false, false, true], (writeOrBreak a).Extends) ∧
      writeOrBreak true (.ofBytes [9]) = .error .overflow (.ofBytes [9, 7]) ∧
      writeList writeOrBreak [false, false, true] (.ofBytes [9]) =
        .error .overflow (.ofBytes [9]) ∧
      (Datum.byte 7).builtin.isFixedSize = true ∧
      ∃ n buf, (Datum.byte 7).write (.ofBytes [9]) = .ok n buf := by
  have hextends : ∀ a ∈ [false, false, true], (writeOrBreak a).Extends := fun a _ buf => by
    have hexec : ((writeOrBreak a).exec buf).2 = buf.push 7 := by cases a <;> rfl
    rw [hexec, Buffer.bytes_push]
    exact List.prefix_append _ _
  have hfails : ∃ buf, writeList writeOrBreak [false, false, true] (.ofBytes [9]) =
      .error .overflow buf := ⟨_, rfl⟩
  obtain ⟨buf, hfails⟩ := hfails
  obtain ⟨⟨-, -, -, -, hlist⟩, hfixed, -⟩ := writers_atomic
  obtain rfl := (hlist writeOrBreak _ hextends).error hfails
  refine ⟨hextends, rfl, hfails, rfl, ?_⟩
  cases hwrite : (Datum.byte 7).write (.ofBytes [9]) with
  | ok n buf => exact ⟨n, buf, rfl⟩
  | error e buf => exact ((hfixed (.byte 7) rfl).error_iff _ |>.1 ⟨e, buf, hwrite⟩).elim

end Backwire.Wire
