import Backwire.Proofs.Wire.Agreement
import Backwire.Proofs.Wire.Assembly
import Backwire.Proofs.Wire.Struct

/-!
# Canonical strings

A value has many written forms, since groups of zeros may stand in front of a numeral. Of these
forms one is shortest, and it is what a writer writes: a numeral that does not start with a group of
zeros is the one that is written for its number (`Numeral.eq_encode`), and everything else in a form
is settled by the value (`Datum.Form.puts`).

So a reader that finds its own tag and a shortest numeral has read exactly the bytes that the writer
would write for what was read, and there is no second string of this kind for the same value.
-/

namespace Backwire.Wire

open Tail

variable {g e : List UInt8} {v n n' : Nat} {t t' rest : Tail} {b : Builtin} {d : Datum}

/-! ### Shortest numerals -/

/-- The numeral at the end of a string, first byte first: it starts at the last byte that is not
marked. -/
def Tail.numeral : Tail → List UInt8
  | [] => []
  | b :: t => if b.toNat < 128 then [b] else numeral t ++ [b]

/-- A numeral does not start with a group of zeros, unless there is no other. -/
def Shortest (g : List UInt8) : Prop := g.length = 1 ∨ g.head? ≠ some 0

instance (g : List UInt8) : Decidable (Shortest g) :=
  inferInstanceAs (Decidable (g.length = 1 ∨ g.head? ≠ some 0))

/-- Where a string ends in a numeral, this is its numeral, whatever stands in front of it. -/
theorem Numeral.numeral_append (h : Numeral g v) (rest : Tail) :
    Tail.numeral (ofBytes g ++ rest) = g := by
  induction h generalizing rest with
  | @top b hb => rw [ofBytes_singleton, List.singleton_append, Tail.numeral, if_pos hb]
  | @more g v b _ hb ih =>
    rw [ofBytes_concat, List.cons_append, Tail.numeral, if_neg (Nat.not_lt.2 hb), ih]

/-- Zero is written in groups of zeros. -/
theorem Numeral.head?_of_zero (h : Numeral g 0) : g.head? = some 0 := by
  generalize hv : 0 = v at h
  induction h with
  | @top b hb =>
    have hzero : b = 0 := UInt8.toNat_inj.1 hv.symm
    rw [hzero, List.head?_cons]
  | more _ _ ih => rw [List.head?_append, ih (by omega), Option.some_or]

/-- **The shortest numeral of a number is the one that is written.** -/
theorem Numeral.eq_encode (h : Numeral g v) (hs : Shortest g) :
    g = toBytes (Varint.encode v) := by
  induction h with
  | @top b hb =>
    rw [Varint.encode, if_pos hb]
    exact congrArg (fun b => [b]) (UInt8.ofNat_toNat).symm
  | @more g v b hg hb ih =>
    have hpos := hg.length_pos
    have hhead : (g ++ [b]).head? = g.head? := by
      rw [List.head?_append_of_ne_nil _ (List.length_pos_iff.1 hpos)]
    -- if nothing but zeros stood in front of this group, the first of them would be too much
    have hfirst : g.head? ≠ some 0 := by
      rw [← hhead]
      exact hs.resolve_left (by rw [List.length_append, List.length_singleton]; omega)
    have hv : v ≠ 0 := by
      rintro rfl
      exact hfirst hg.head?_of_zero
    have hgroup : (b.toNat % 128 + 128 * v) % 128 + 128 = b.toNat := by
      have := b.toNat_lt
      omega
    rw [Varint.encode, if_neg (by omega), hgroup,
      show (b.toNat % 128 + 128 * v) / 128 = v by omega, toBytes, List.reverse_cons, ← toBytes,
      ← ih (.inr hfirst)]
    exact congrArg (fun b => g ++ [b]) (UInt8.ofNat_toNat).symm

/-! ### Shortest forms are written -/

/-- A writer that calculates the size and then adds bytes of that size. -/
theorem puts_ofExcept (size : Except WireError Nat) {f : Buffer → Buffer}
    (hsize : size = .ok e.length) (hf : ∀ buf, f buf = buf.write e) :
    Puts (do let n ← Writer.ofExcept size; modify f; return n) e := fun buf => by
  rw [hsize, ← hf]
  rfl

theorem puts_writeFixed (payload : List UInt8) (tag : Tag) :
    Puts (writeFixed payload tag) (payload ++ [tag.toByte]) := by
  refine puts_ofExcept (.ok (payload.length + 1)) ?_ fun buf => ?_
  · rw [List.length_append, List.length_singleton]
  · rw [← Buffer.write_write]
    rfl

/-- In front of the last byte stands the numeral that would be written. -/
theorem Numeral.eq_encode_of_concat {body : List UInt8} {c : UInt8} {rest : Tail}
    (h : Numeral g v) (hs : Shortest (Tail.numeral (ofBytes (body ++ g ++ [c]) ++ rest).tail)) :
    g = toBytes (Varint.encode v) := by
  rw [ofBytes_concat, List.cons_append, List.tail_cons, ofBytes_append, List.append_assoc,
    h.numeral_append] at hs
  exact h.eq_encode hs

theorem puts_writeUnsigned {tag : Tag} (h : NumberForm tag v e)
    (hs : Shortest (Tail.numeral (ofBytes e ++ rest).tail)) : Puts (writeUnsigned v tag) e := by
  obtain ⟨g, rfl, hg, -⟩ := h
  rw [ofBytes_concat, List.cons_append, List.tail_cons, hg.numeral_append] at hs
  obtain rfl := hg.eq_encode hs
  refine puts_ofExcept (.ok (Varint.width v + 1)) ?_ fun buf => ?_
  · rw [List.length_append, length_toBytes, Varint.length_encode, List.length_singleton]
  · rw [← Buffer.write_write]
    simp [Buffer.push, Buffer.writeVarint, Buffer.write, toBytes]

theorem puts_writeBytes {data : List UInt8} (h : RegionForm .bytes data e)
    (hs : Shortest (Tail.numeral (ofBytes e ++ rest).tail)) : Puts (writeBytes data) e := by
  obtain ⟨g, rfl, hg, hmax⟩ := h
  obtain rfl := hg.1.eq_encode_of_concat hs
  refine puts_ofExcept _ (bytesExtent_eq_ok_iff.2 ⟨?_, hmax⟩) fun buf => ?_
  · simp only [List.length_append, length_toBytes, Varint.length_encode, List.length_singleton]
  · simp [Buffer.push, Buffer.writeVarint, Buffer.write, toBytes]

theorem puts_writeString {s : String} (h : TextForm s e)
    (hs : Shortest (Tail.numeral (ofBytes e ++ rest).tail)) : Puts (writeString s) e := by
  obtain ⟨g, rfl, hg, hmax⟩ := h
  obtain rfl := hg.1.eq_encode_of_concat hs
  refine puts_ofExcept _ (stringExtent_eq_ok_iff.2 ⟨?_, hmax⟩) fun buf => ?_
  · simp only [List.length_append, length_toBytes, Varint.length_encode, List.length_singleton]
    rfl
  · simp [Buffer.push, Buffer.writeVarint, Buffer.write, toBytes, utf8]

/-- The values of a type are written with a numeral in front of the tag. -/
def Builtin.hasNumeral : Builtin → Bool
  | int16 | int32 | int64 | uint16 | uint32 | uint64 | bytes | string => true
  | _ => false

/-- **The shortest form of a value is what is written** for it. -/
theorem Datum.Form.puts (h : d.Form e) (rest : Tail)
    (hs : d.builtin.hasNumeral = true → Shortest (Tail.numeral (ofBytes e ++ rest).tail)) :
    Puts d.write e := by
  cases d with
  | bool v =>
    cases v
    · exact h ▸ puts_writeFixed [] .boolFalse
    · exact h ▸ puts_writeFixed [] .boolTrue
  | byte v => exact h ▸ puts_writeFixed [v] .byte
  | int16 _ | int32 _ | int64 _ | uint16 _ | uint32 _ | uint64 _ => exact puts_writeUnsigned h (hs rfl)
  | bin64 _ | bin128 _ | bin256 _ | float32 _ | float64 _ => exact h ▸ puts_writeFixed _ _
  | bytes _ => exact puts_writeBytes h (hs rfl)
  | string _ => exact puts_writeString h (hs rfl)

/-! ### Canonical strings -/

/-- **A string is canonical** for a type: it ends in a tag of this type, and the numeral in front of
the tag, if the type has one, is shortest. -/
structure Canonical (b : Builtin) (t : Tail) : Prop where
  own : ∃ tag, readTag t = .ok tag ∧ tag.builtin? = some b
  shortest : b.hasNumeral = true → Shortest (Tail.numeral t.tail)

/-- What is read off a canonical string is what is written for the value. -/
theorem Builtin.endsIn_of_read (h : b.read t = .ok (d, n)) (hc : Canonical b t) :
    t.EndsIn n (Puts d.write) := by
  obtain ⟨tag, htag, hb⟩ := hc.own
  rcases readTag_eq_ok_iff.1 htag with ⟨-, rfl⟩ | ⟨front, rfl⟩
  · cases hb
  · have hform := (Builtin.read_eq_ok_iff hb).1 h
    have hd : d.builtin = b := by
      have hbuiltin := d.builtin?_tag
      rw [Datum.tag_of_endsIn hform, hb] at hbuiltin
      exact (Option.some.inj hbuiltin).symm
    obtain ⟨e, rest, ht, hlen, he⟩ := hform
    refine ⟨e, rest, ht, hlen, he.puts rest fun hnum => ?_⟩
    rw [← ht]
    exact hc.shortest (hd ▸ hnum)

/-- A writer adds one string only. -/
theorem Puts.unique {w : Writer Nat} {e' : List UInt8} (h : Puts w e) (h' : Puts w e') : e = e' := by
  have hbuf := (h {}).symm.trans (h' {})
  simp only [EStateM.Result.ok.injEq] at hbuf
  simpa using congrArg Buffer.bytes hbuf.2

/-- **Canonical bytes are restored.** If a value is read off a canonical string, with a size of `n`,
then it is written, behind anything, as the last `n` bytes of this string; and wherever else it is
read off a canonical string, it has these bytes too. -/
theorem write_of_read_canonical (h : b.read t = .ok (d, n)) (hc : Canonical b t) :
    (∀ buf, d.write buf = .ok n (buf.write (toBytes (t.take n)))) ∧
      ∀ t' n', b.read t' = .ok (d, n') → Canonical b t' → n' = n ∧ t'.take n' = t.take n := by
  have hputs {t : Tail} {n : Nat} (h : b.read t = .ok (d, n)) (hc : Canonical b t) :
      (toBytes (t.take n)).length = n ∧ Puts d.write (toBytes (t.take n)) := by
    obtain ⟨hle, hput⟩ := endsIn_iff_take.1 (Builtin.endsIn_of_read h hc)
    exact ⟨by rw [length_toBytes, List.length_take_of_le hle], hput⟩
  obtain ⟨hlen, hput⟩ := hputs h hc
  refine ⟨fun buf => ?_, fun t' n' h' hc' => ?_⟩
  · have hbuf := hput buf
    rwa [hlen] at hbuf
  · obtain ⟨hlen', hput'⟩ := hputs h' hc'
    have hbytes := hput'.unique hput
    exact ⟨by rw [← hlen, ← hlen', hbytes], List.reverse_injective hbytes⟩

/-- Three hundred, behind two strings that are something else; with a group of zeros in front, the
same number is read off a string that is not canonical. -/
theorem write_of_read_canonical_uint16 :
    Builtin.uint16.read (ofBytes [7, 2, 0xac, 20]) = .ok (.uint16 300, 3) ∧
      Canonical .uint16 (ofBytes [7, 2, 0xac, 20]) ∧
      (∀ buf, (Datum.uint16 300).write buf = .ok 3 (buf.write [2, 0xac, 20])) ∧
      Builtin.uint16.read (ofBytes [9, 9, 2, 0xac, 20]) = .ok (.uint16 300, 3) ∧
      Canonical .uint16 (ofBytes [9, 9, 2, 0xac, 20]) ∧
      (ofBytes [9, 9, 2, 0xac, 20]).take 3 = (ofBytes [7, 2, 0xac, 20]).take 3 ∧
      Builtin.uint16.read (ofBytes [0, 0x82, 0xac, 20]) = .ok (.uint16 300, 4) ∧
      ¬Canonical .uint16 (ofBytes [0, 0x82, 0xac, 20]) := by
  have hread : Builtin.uint16.read (ofBytes [7, 2, 0xac, 20]) = .ok (.uint16 300, 3) := by rfl
  have hc : Canonical .uint16 (ofBytes [7, 2, 0xac, 20]) := ⟨⟨.uint16, rfl, rfl⟩, fun _ => by decide⟩
  have hread' : Builtin.uint16.read (ofBytes [9, 9, 2, 0xac, 20]) = .ok (.uint16 300, 3) := by rfl
  have hc' : Canonical .uint16 (ofBytes [9, 9, 2, 0xac, 20]) :=
    ⟨⟨.uint16, rfl, rfl⟩, fun _ => by decide⟩
  obtain ⟨hwrite, hunique⟩ := write_of_read_canonical hread hc
  exact ⟨hread, hc, hwrite, hread', hc', (hunique _ _ hread' hc').2, by rfl,
    fun h => absurd (h.shortest rfl) (by decide)⟩

end Backwire.Wire
