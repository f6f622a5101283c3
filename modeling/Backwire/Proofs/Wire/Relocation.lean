import Backwire.Proofs.Wire.Contents
import Backwire.Sample.Scene

/-!
# Building does not depend on the place

Every offset of a builder counts from where it was opened, and everything that is taken back is
taken back to there. So a run does the same wherever it starts: what stood in the buffer before is
kept in front of what the run adds, and no step gives another result. `Writer.Relocatable` says this
of a writer and is kept when writers are put together; `Run.exec_behind` says it of a run.

For an inner builder it means that nesting is concatenation: what it adds to the buffer of the outer
one is what the same run makes in a buffer of its own (`build_relocates`).
-/

namespace Backwire.Wire

open Tail

/-! ### More bytes in front -/

/-- The buffer with the bytes `p` in front of its own. -/
def Buffer.behind (buf : Buffer) (p : List UInt8) : Buffer := ⟨buf.tail ++ Tail.ofBytes p⟩

namespace Buffer

variable (buf : Buffer) (p : List UInt8)

@[simp] theorem bytes_behind : (buf.behind p).bytes = p ++ buf.bytes := by
  simp [behind, bytes, toBytes, Tail.ofBytes]

@[simp] theorem size_behind : (buf.behind p).size = p.length + buf.size := by
  rw [← size_eq, bytes_behind, List.length_append, size_eq]

theorem push_behind (b : UInt8) : (buf.behind p).push b = (buf.push b).behind p := rfl

theorem write_behind (bytes : List UInt8) :
    (buf.behind p).write bytes = (buf.write bytes).behind p := by
  simp only [behind, write, List.append_assoc]

theorem writeVarint_behind (v : Nat) :
    (buf.behind p).writeVarint v = (buf.writeVarint v).behind p := by
  simp only [behind, writeVarint, List.append_assoc]

/-- What is cut off lies behind the bytes in front. -/
theorem truncate_behind (start : Nat) :
    (buf.behind p).truncate (p.length + start) = (buf.truncate start).behind p := by
  have hcut : p.length + buf.size - (p.length + start) = buf.size - start := by omega
  have hle : buf.size - start ≤ buf.tail.length := Nat.sub_le _ _
  rw [truncate, size_behind, hcut, behind, List.drop_append_of_le_length hle]
  rfl

theorem ext_bytes {a b : Buffer} (h : a.bytes = b.bytes) : a = b := by
  cases a
  cases b
  exact congrArg _ (List.reverse_injective h)

/-- A buffer holds its bytes in front of an empty one. -/
theorem empty_behind : (({} : Buffer).behind buf.bytes) = buf :=
  ext_bytes (by rw [bytes_behind]; exact List.append_nil _)

theorem behind_bytes (a : Buffer) : a.behind buf.bytes = buf.write a.bytes :=
  ext_bytes (by rw [bytes_behind, bytes_write])

end Buffer

/-! ### Writers -/

variable {α β : Type}

/-- What a writer leads to, with more bytes in front. -/
def Writer.placed (p : List UInt8) :
    EStateM.Result WireError Buffer α → EStateM.Result WireError Buffer α
  | .ok a buf => .ok a (buf.behind p)
  | .error e buf => .error e (buf.behind p)

/-- **The writer does the same behind any bytes.** -/
def Writer.Relocatable (w : Writer α) : Prop :=
  ∀ (p : List UInt8) (buf : Buffer), w (buf.behind p) = placed p (w buf)

namespace Writer.Relocatable

theorem pure (a : α) : Relocatable (Pure.pure a) := fun _ _ => rfl

theorem bind {w : Writer α} {f : α → Writer β} (hw : Relocatable w)
    (hf : ∀ a, Relocatable (f a)) : Relocatable (w >>= f) := fun p buf => by
  change EStateM.bind w f (buf.behind p) = placed p (EStateM.bind w f buf)
  unfold EStateM.bind
  rw [hw p buf]
  cases w buf with
  | ok a buf' => exact hf a p buf'
  | error e buf' => rfl

theorem ofExcept (r : Except WireError α) : Relocatable (Writer.ofExcept r) := fun _ _ => by
  cases r <;> rfl

/-- Changing the end of the buffer and returning what was known before. -/
theorem changing {f : Buffer → Buffer} (hf : ∀ p buf, f (Buffer.behind buf p) = (f buf).behind p)
    (a : α) : Relocatable (do modify f; return a) := fun p buf =>
  congrArg (EStateM.Result.ok a) (hf p buf)

end Writer.Relocatable

open Writer (Relocatable)

theorem relocatable_writeUnsigned (v : Nat) (tag : Tag) : Relocatable (writeUnsigned v tag) :=
  .changing (fun p buf => by rw [Buffer.writeVarint_behind, Buffer.push_behind]) _

theorem relocatable_writeSigned (v : Int) (tag : Tag) : Relocatable (writeSigned v tag) :=
  relocatable_writeUnsigned (Varint.zigzag v) tag

theorem relocatable_writeFixed (payload : List UInt8) (tag : Tag) :
    Relocatable (writeFixed payload tag) :=
  .changing (fun p buf => by rw [Buffer.write_behind, Buffer.push_behind]) _

theorem relocatable_writeBytes (v : List UInt8) : Relocatable (writeBytes v) :=
  (Relocatable.ofExcept _).bind fun total => .changing (fun p buf => by
    rw [Buffer.write_behind, Buffer.writeVarint_behind, Buffer.push_behind]) total

theorem relocatable_writeString (s : String) : Relocatable (writeString s) :=
  (Relocatable.ofExcept _).bind fun total => .changing (fun p buf => by
    rw [Buffer.write_behind, Buffer.push_behind, Buffer.writeVarint_behind, Buffer.push_behind])
    total

theorem relocatable_writeStructTrailer (n : Nat) : Relocatable (writeStructTrailer n) :=
  (Relocatable.ofExcept _).bind fun total => .changing (fun p buf => by
    rw [Buffer.writeVarint_behind, Buffer.push_behind]) total

theorem relocatable_writeTable (n : Nat) (table : List UInt8) (tag : Tag) :
    Relocatable (writeTable n table tag) :=
  (Relocatable.ofExcept _).bind fun trailer => .changing (fun p buf => by
    rw [Buffer.write_behind, Buffer.writeVarint_behind, Buffer.writeVarint_behind,
      Buffer.push_behind]) trailer

theorem Datum.relocatable (d : Datum) : Relocatable d.write := by
  cases d with
  | bool v => exact relocatable_writeFixed [] _
  | byte v => exact relocatable_writeFixed [v] .byte
  | int16 v => exact relocatable_writeSigned v.toInt .int16
  | int32 v => exact relocatable_writeSigned v.toInt .int32
  | int64 v => exact relocatable_writeSigned v.toInt .int64
  | uint16 v => exact relocatable_writeUnsigned v.toNat .uint16
  | uint32 v => exact relocatable_writeUnsigned v.toNat .uint32
  | uint64 v => exact relocatable_writeUnsigned v.toNat .uint64
  | bin64 v => exact relocatable_writeFixed v.bytes .bin64
  | bin128 v => exact relocatable_writeFixed v.bytes .bin128
  | bin256 v => exact relocatable_writeFixed v.bytes .bin256
  | float32 v => exact relocatable_writeFixed (Word.toBytes 4 v.bits.toNat) .float32
  | float64 v => exact relocatable_writeFixed (Word.toBytes 8 v.bits.toNat) .float64
  | bytes v => exact relocatable_writeBytes v
  | string s => exact relocatable_writeString s

/-- What is written since a place in the buffer has the same size behind any bytes. -/
theorem relocatable_sized {f : Nat → Writer α} (hf : ∀ n, Relocatable (f n)) (start : Nat)
    (p : List UInt8) (buf : Buffer) :
    (do let n := (← get).size - (p.length + start); f n : Writer α) (buf.behind p) =
      Writer.placed p ((do let n := (← get).size - start; f n : Writer α) buf) := by
  change f ((buf.behind p).size - (p.length + start)) (buf.behind p) =
    Writer.placed p (f (buf.size - start) buf)
  rw [Buffer.size_behind, Nat.add_sub_add_left]
  exact hf _ p buf

theorem relocatable_writeStruct {fields : Writer Unit} (h : Relocatable fields) :
    Relocatable (writeStruct fields) := fun p buf => by
  have hrun (buf : Buffer) : writeStruct fields buf = (do
      fields
      let n := (← get).size - buf.size
      return n + (← writeStructTrailer n) : Writer Nat) buf := rfl
  have hclose (n : Nat) : Relocatable (do return n + (← writeStructTrailer n)) :=
    (relocatable_writeStructTrailer n).bind fun _ => .pure _
  rw [hrun, hrun, Buffer.size_behind]
  change EStateM.bind fields _ (buf.behind p) = Writer.placed p (EStateM.bind fields _ buf)
  unfold EStateM.bind
  rw [h p buf]
  cases fields buf with
  | ok _ buf' => exact relocatable_sized hclose buf.size p buf'
  | error e buf' => rfl

theorem Record.relocatable_writeFields (r : Record) : Relocatable r.writeFields := by
  induction r with
  | empty => exact .pure ()
  | datum d rest ih => exact d.relocatable.bind fun _ => ih
  | record inner rest ihInner ih => exact (relocatable_writeStruct ihInner).bind fun _ => ih

theorem Record.relocatable (r : Record) : Relocatable r.write :=
  relocatable_writeStruct r.relocatable_writeFields

/-! ### Open builders -/

variable {k : Layout} {enc : α → Writer Nat}

namespace Frame

/-- The builder in a buffer that has the bytes `p` in front of its own. -/
def behind (f : Frame k) (p : List UInt8) : Frame k := { f with start := p.length + f.start }

variable {f f' : Frame k} {buf buf' : Buffer} {slot : k.Slot} (p : List UInt8)

theorem openAt_behind (k : Layout) (buf : Buffer) :
    openAt k (buf.behind p) = (openAt k buf).behind p := by
  rw [openAt, Buffer.size_behind]
  rfl

theorem relativeStop_behind (start stop : Nat) :
    relativeStop (p.length + start) (p.length + stop) = relativeStop start stop := by
  rw [relativeStop, relativeStop, Nat.add_sub_add_left]

theorem write_behind (henc : ∀ a, Relocatable (enc a)) {a : α} {result : Except WireError Unit}
    (h : f.write enc slot a buf = (result, f', buf')) :
    (f.behind p).write enc slot a (buf.behind p) = (result, f'.behind p, buf'.behind p) := by
  unfold Frame.write at h ⊢
  rw [henc a p buf]
  cases hw : enc a buf with
  | error e buf₁ =>
    rw [hw] at h
    cases h
    rfl
  | ok n buf₁ =>
    rw [hw] at h
    simp only [Writer.placed, behind, Buffer.size_behind, relativeStop_behind] at h ⊢
    cases hstop : relativeStop f.start buf₁.size with
    | error e =>
      rw [hstop] at h
      cases h
      rfl
    | ok stop =>
      rw [hstop] at h
      cases h
      rfl

theorem writeAll_behind (henc : ∀ a, Relocatable (enc a)) {values : List α}
    {result : Except WireError Unit} (h : f.writeAll enc slot values buf = (result, f', buf')) :
    (f.behind p).writeAll enc slot values (buf.behind p) =
      (result, f'.behind p, buf'.behind p) := by
  induction values generalizing f buf with
  | nil =>
    cases h
    rfl
  | cons a values ih =>
    obtain ⟨r, f₁, buf₁, hwrite⟩ : ∃ r f₁ buf₁, f.write enc slot a buf = (r, f₁, buf₁) :=
      ⟨_, _, _, rfl⟩
    rw [writeAll, hwrite] at h
    rw [writeAll, write_behind p henc hwrite]
    cases r with
    | error e =>
      cases h
      rfl
    | ok _ => exact ih h

/-- Closing counts from where the builder was opened; a message that is refused is taken back to
there. -/
theorem finish_behind (f : Frame k) (buf : Buffer) :
    (f.behind p).finish (buf.behind p) = Writer.placed p (f.finish buf) := by
  have hclose (n : Nat) (table : List UInt8) (tag : Tag) :
      Relocatable (do return n + (← writeTable n table tag)) :=
    (relocatable_writeTable n table tag).bind fun _ => .pure _
  cases k with
  | list => exact relocatable_sized (fun n => hclose n _ _) f.start p buf
  | message =>
    cases hrepeated : firstRepeated f.sorted with
    | none =>
      have hfinish (f' : Frame .message) (h : f'.sorted = f.sorted) (buf : Buffer) :
          f'.finish buf = (do
            let n := (← get).size - f'.start
            return n + (← writeMessageTable n f.sorted) : Writer Nat) buf := by
        simp only [finish, h, hrepeated]
      rw [hfinish (f.behind p) rfl, hfinish f rfl]
      exact relocatable_sized (fun n => hclose n _ _) f.start p buf
    | some tag =>
      have hfinish (f' : Frame .message) (h : f'.sorted = f.sorted) (buf : Buffer) :
          f'.finish buf = .error (.duplicateTag tag) (buf.truncate f'.start) := by
        simp only [finish, h, hrepeated]
        rfl
      rw [hfinish (f.behind p) rfl, hfinish f rfl, behind, Buffer.truncate_behind]
      rfl

theorem adopt_behind {outcome outcome' : Outcome} {size : Nat}
    (h : f.adopt slot outcome size = (outcome', f')) :
    (f.behind p).adopt slot outcome (p.length + size) = (outcome', f'.behind p) := by
  unfold adopt at h ⊢
  split at h
  · simp only [behind, relativeStop_behind]
    split at h <;>
    · cases h
      rfl
  · cases h
    rfl

end Frame

/-! ### Runs -/

/-- **A run does the same behind any bytes**: each of its steps gives the same, and the bytes in
front stay as they are. -/
theorem Run.exec_behind (henc : ∀ a, Relocatable (enc a)) (p : List UInt8) {run : Run α k}
    {f : Frame k} {buf buf' : Buffer} {outcome : Outcome} {events : List Event}
    (h : run.exec enc f buf = (outcome, buf', events)) :
    run.exec enc (f.behind p) (buf.behind p) = (outcome, buf'.behind p, events) := by
  induction run generalizing buf buf' outcome events with
  | finish =>
    rw [exec] at h ⊢
    rw [f.finish_behind]
    cases hfinish : f.finish buf with
    | ok n buf₁ =>
      rw [hfinish] at h
      cases h
      rfl
    | error e buf₁ =>
      rw [hfinish] at h
      cases h
      rfl
  | abandon =>
    cases h
    rfl
  | write slot values rest ih =>
    obtain ⟨result, f', buf₁, hall⟩ : ∃ result f' buf₁,
        f.writeAll enc slot values buf = (result, f', buf₁) := ⟨_, _, _, rfl⟩
    obtain ⟨last, buf₂, later, hrest⟩ : ∃ last buf₂ later,
        rest.exec enc f' buf₁ = (last, buf₂, later) := ⟨_, _, _, rfl⟩
    rw [exec_write hall hrest] at h
    cases h
    have hall' := Frame.writeAll_behind p henc hall
    exact (exec_write hall' (ih hrest) :)
  | nest slot inner rest ihInner ih =>
    rename_i j
    obtain ⟨ending, buf₁, innerEvents, hinner⟩ : ∃ ending buf₁ innerEvents,
        inner.exec enc (.openAt j buf) buf = (ending, buf₁, innerEvents) := ⟨_, _, _, rfl⟩
    obtain ⟨adopted, f', hadopt⟩ : ∃ adopted f',
        f.adopt slot ending buf₁.size = (adopted, f') := ⟨_, _, rfl⟩
    obtain ⟨last, buf₂, later, hrest⟩ : ∃ last buf₂ later,
        rest.exec enc f' buf₁ = (last, buf₂, later) := ⟨_, _, _, rfl⟩
    rw [exec_nest hinner hadopt hrest] at h
    cases h
    have hinner' := ihInner hinner
    rw [← Frame.openAt_behind] at hinner'
    have hadopt' := Frame.adopt_behind p hadopt
    rw [← Buffer.size_behind] at hadopt'
    exact (exec_nest hinner' hadopt' (ih hrest) :)

/-- A builder on any buffer adds what the same run makes in a buffer of its own. -/
theorem Run.build_eq (henc : ∀ a, Relocatable (enc a)) (run : Run α k) (buf : Buffer) :
    run.build enc buf =
      ((run.build enc {}).1, buf.write (run.build enc {}).2.1.bytes, (run.build enc {}).2.2) := by
  have h := exec_behind henc buf.bytes (rfl : run.exec enc (.openAt k {}) {} = run.build enc {})
  rwa [← Frame.openAt_behind, Buffer.empty_behind, Buffer.behind_bytes] at h

/-- Values of builtin types and structs are written in the same way anywhere. -/
theorem relocatable_cell (c : Sample.Cell) : Relocatable c.write := by
  cases c with
  | datum d => exact d.relocatable
  | record r => exact r.relocatable

/-- **Encoding is relocatable and nesting is concatenation.** Whatever is done with a builder and
those inside it: behind any bytes `p` it makes `p` and then what it makes in an empty buffer, and
each of its steps gives the same. As the inner builder of any other, in whatever state this is, it
adds these same bytes, ends in the same way, and the outer builder goes on behind them. -/
theorem build_relocates (run : Run Sample.Cell k) :
    let (outcome, made, events) := run.build Sample.Cell.write {}
    (∀ p : List UInt8, run.build Sample.Cell.write (.ofBytes p) =
      (outcome, .ofBytes (p ++ made.bytes), events)) ∧
    ∀ {j : Layout} (slot : j.Slot) (rest : Run Sample.Cell j) (f : Frame j) (buf : Buffer),
      (Run.nest slot run rest).exec Sample.Cell.write f buf =
        let buf₁ := buf.write made.bytes
        let (adopted, f') := f.adopt slot outcome buf₁.size
        let (last, buf₂, later) := rest.exec Sample.Cell.write f' buf₁
        (last, buf₂, .opened k :: (events ++ .closed adopted f'.entries.length :: later)) := by
  have hbuild := Run.build_eq relocatable_cell run
  refine ⟨fun p => ?_, fun slot rest f buf => ?_⟩
  · have hbytes (e : List UInt8) : (Buffer.ofBytes p).write e = .ofBytes (p ++ e) :=
      Buffer.ext_bytes (by rw [Buffer.bytes_write, Buffer.bytes_ofBytes, Buffer.bytes_ofBytes])
    rw [hbuild (.ofBytes p), hbytes]
    rfl
  · exact Run.exec_nest (hbuild buf) rfl rfl

end Backwire.Wire
