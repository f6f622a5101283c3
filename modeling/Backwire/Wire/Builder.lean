import Backwire.Wire.Encode

/-!
# Building lists and messages

A builder appends values to a buffer and remembers where each of them ends. When it is finished
it appends the table and the trailer. A builder may be opened inside another one; when the inner
one is finished, the outer one records it as one more value. An inner builder that is abandoned
leaves its bytes in the buffer and is not recorded. A message that was given two values under one
tag cannot be finished: its bytes are taken back, and the outer builder goes on.

A `Run` is everything that is done with one builder from its opening to its end, with the runs of
the inner builders in their places. `Run.exec` carries it out and reports what each step gave.
The values may be of any type that comes with a writer.
-/

namespace Backwire.Wire

/-- What a builder makes. -/
inductive Layout where
  | message
  | list
  deriving DecidableEq, Repr

/-- What has to be said to place a value: the tag in a message, nothing in a list. -/
abbrev Layout.Slot : Layout → Type
  | message => UInt16
  | list => Unit

/-- Everything that is done with one builder. -/
inductive Run (α : Type) : Layout → Type where
  /-- The builder is finished. -/
  | finish {k : Layout} : Run α k
  /-- The builder is abandoned. -/
  | abandon {k : Layout} : Run α k
  /-- Values are written in turn, until one is refused; then the run goes on. -/
  | write {k : Layout} (slot : k.Slot) (values : List α) (rest : Run α k) : Run α k
  /-- An inner builder is run; then the run goes on. -/
  | nest {k : Layout} (slot : k.Slot) {j : Layout} (inner : Run α j) (rest : Run α k) : Run α k

/-- How a builder ended. -/
inductive Outcome where
  /-- It was finished, and the value has the given size, or it was refused. -/
  | finished (result : Except WireError Nat)
  /-- It was abandoned with so many values recorded. -/
  | abandoned (count : Nat)

/-- What a step of a run gave. The count is that of the values recorded after it. -/
inductive Event where
  /-- A builder was opened. -/
  | opened (layout : Layout)
  /-- Values were written. -/
  | wrote (result : Except WireError Unit) (count : Nat)
  /-- An inner builder ended. -/
  | closed (outcome : Outcome) (count : Nat)

/-! ### Open builders -/

/-- An open builder: where it started and what it has recorded, oldest first. -/
structure Frame (k : Layout) where
  /-- The size of the buffer when the builder was opened. -/
  start : Nat
  /-- Where each value was placed and where it ends, counted from `start`. -/
  entries : List (k.Slot × Nat) := []

namespace Frame

variable {k : Layout} {α : Type}

/-- The builder opened at the end of a buffer. -/
def openAt (k : Layout) (buf : Buffer) : Frame k := ⟨buf.size, []⟩

/-- Records a value. -/
def record (f : Frame k) (slot : k.Slot) (stop : Nat) : Frame k :=
  { f with entries := f.entries ++ [(slot, stop)] }

/-- Writes one value and records it. -/
def write (enc : α → Writer Nat) (f : Frame k) (slot : k.Slot) (a : α) (buf : Buffer) :
    Except WireError Unit × Frame k × Buffer :=
  match enc a buf with
  | .error e buf' => (.error e, f, buf')
  | .ok _ buf' =>
    match relativeStop f.start buf'.size with
    | .error e => (.error e, f, buf')
    | .ok stop => (.ok (), f.record slot stop, buf')

/-- Writes values in turn, until one is refused. -/
def writeAll (enc : α → Writer Nat) (f : Frame k) (slot : k.Slot) :
    List α → Buffer → Except WireError Unit × Frame k × Buffer
  | [], buf => (.ok (), f, buf)
  | a :: rest, buf =>
    match f.write enc slot a buf with
    | (.error e, f', buf') => (.error e, f', buf')
    | (.ok (), f', buf') => f'.writeAll enc slot rest buf'

/-- The fields of a message sorted by tag, in the order of writing where tags agree. -/
def sorted (f : Frame .message) : List Entry :=
  (f.entries.map fun (tag, stop) => Entry.mk tag stop).mergeSort fun a b => a.tag ≤ b.tag

/-- The first tag that equals the one after it. -/
def firstRepeated : List Entry → Option UInt16
  | a :: b :: rest => if a.tag = b.tag then some a.tag else firstRepeated (b :: rest)
  | _ => none

/-- Finishes a builder: appends the table and the trailer, and returns the size of the value.
A message with a repeated tag is taken back. -/
def finish : {k : Layout} → Frame k → Writer Nat
  | .message, f => do
    match firstRepeated f.sorted with
    | some tag =>
      modify fun buf => buf.truncate f.start
      throw (.duplicateTag tag)
    | none =>
      let n := (← get).size - f.start
      return n + (← writeMessageTable n f.sorted)
  | .list, f => do
    let n := (← get).size - f.start
    return n + (← writeListTable n (f.entries.map Prod.snd))

/-- Records an inner builder that was finished where the buffer now ends; one that was refused
or abandoned is not recorded. -/
def adopt (f : Frame k) (slot : k.Slot) (outcome : Outcome) (size : Nat) : Outcome × Frame k :=
  match outcome with
  | .finished (.ok n) =>
    match relativeStop f.start size with
    | .ok stop => (.finished (.ok n), f.record slot stop)
    | .error e => (.finished (.error e), f)
  | other => (other, f)

end Frame

/-! ### Running -/

/-- Carries out what is done with an open builder. -/
def Run.exec {α : Type} (enc : α → Writer Nat) :
    {k : Layout} → Run α k → Frame k → Buffer → Outcome × Buffer × List Event
  | _, .finish, f, buf =>
    match f.finish buf with
    | .ok n buf' => (.finished (.ok n), buf', [])
    | .error e buf' => (.finished (.error e), buf', [])
  | _, .abandon, f, buf => (.abandoned f.entries.length, buf, [])
  | _, .write slot values rest, f, buf =>
    match f.writeAll enc slot values buf with
    | (result, f', buf') =>
      match rest.exec enc f' buf' with
      | (outcome, buf'', events) => (outcome, buf'', .wrote result f'.entries.length :: events)
  | _, .nest (j := j) slot inner rest, f, buf =>
    match inner.exec enc (.openAt j buf) buf with
    | (outcome, buf', innerEvents) =>
      match f.adopt slot outcome buf'.size with
      | (outcome, f') =>
        match rest.exec enc f' buf' with
        | (last, buf'', events) =>
          (last, buf'',
            .opened j :: (innerEvents ++ .closed outcome f'.entries.length :: events))

/-- Opens a builder at the end of a buffer and carries out what is done with it. -/
def Run.build {α : Type} (enc : α → Writer Nat) {k : Layout} (run : Run α k) (buf : Buffer) :
    Outcome × Buffer × List Event :=
  run.exec enc (.openAt k buf) buf

end Backwire.Wire
