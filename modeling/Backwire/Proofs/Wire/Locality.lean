import Backwire.Proofs.Wire.Reading

/-!
# What a reader depends on

A value that takes `n` bytes depends on nothing but the last `n` bytes of the string: whatever
stands in front of them may be replaced. And where reading fails, more bytes in front can help only
if bytes were missing or a size reached too far; every other failure is there to stay.

Both are laws of payloads first. What is made of a payload does not look at the string again, so
they hold of every reader.
-/

namespace Backwire.Wire

open Tail

/-! ### Tags -/

theorem readTag_eq_ok_iff {t : Tail} {tag : Tag} :
    readTag t = .ok tag ↔ t = [] ∧ tag = .undefined ∨ ∃ rest, t = tag.toByte :: rest := by
  constructor
  · intro h
    cases t with
    | nil =>
      cases h
      exact .inl ⟨rfl, rfl⟩
    | cons b rest =>
      unfold readTag at h
      dsimp only at h
      cases hb : Tag.ofByte? b with
      | none => simp [hb] at h
      | some tag' =>
        rw [hb] at h
        cases h
        exact .inr ⟨rest, by rw [Tag.toByte_of_ofByte? hb]⟩
  · rintro (⟨rfl, rfl⟩ | ⟨rest, rfl⟩)
    · rfl
    · exact readTag_cons tag rest

/-- The tag is the last byte. -/
theorem readTag_append {t : Tail} (ht : t ≠ []) (front : Tail) :
    readTag (t ++ front) = readTag t := by
  obtain ⟨b, rest, rfl⟩ := List.exists_cons_of_ne_nil ht
  rfl

/-- Under a tag other than that of the absent value there is a last byte. -/
theorem eq_cons_of_readTag {t : Tail} {tag : Tag} (h : readTag t = .ok tag)
    (htag : tag ≠ .undefined) : ∃ rest, t = tag.toByte :: rest := by
  rcases readTag_eq_ok_iff.1 h with ⟨-, h⟩ | h
  · exact absurd h htag
  · exact h

/-! ### Payloads -/

variable {tag : Tag} {t : Tail} {p : tag.Payload} {n : Nat}

/-- A payload lies within the string. -/
theorem readPayload_le_length (htag : readTag t = .ok tag) (h : readPayload tag t = .ok (p, n)) :
    n ≤ t.length := by
  by_cases hne : tag = .undefined
  · subst hne
    cases h
    exact Nat.zero_le _
  · obtain ⟨rest, rfl⟩ := eq_cons_of_readTag htag hne
    obtain ⟨F, hF⟩ := exists_payloadForm hne p
    exact ((hF rest n).1 h).le_length

/-- A payload is found again behind other bytes. -/
theorem readPayload_take (htag : readTag t = .ok tag) (h : readPayload tag t = .ok (p, n))
    (hn : 0 < n) (front : Tail) :
    readTag (t.take n ++ front) = .ok tag ∧ readPayload tag (t.take n ++ front) = .ok (p, n) := by
  obtain ⟨n, rfl⟩ := Nat.exists_eq_succ_of_ne_zero hn.ne'
  have hne : tag ≠ .undefined := by
    rintro rfl
    cases h
  obtain ⟨rest, rfl⟩ := eq_cons_of_readTag htag hne
  obtain ⟨F, hF⟩ := exists_payloadForm hne p
  have hends := ((hF rest _).1 h).take front
  rw [List.take_succ_cons, List.cons_append] at hends ⊢
  exact ⟨readTag_cons tag _, (hF _ _).2 hends⟩

/-- A payload is found again behind more bytes. -/
theorem readPayload_append (htag : readTag t = .ok tag) (h : readPayload tag t = .ok (p, n))
    (front : Tail) : readPayload tag (t ++ front) = .ok (p, n) := by
  by_cases hne : tag = .undefined
  · subst hne
    exact h
  · obtain ⟨rest, rfl⟩ := eq_cons_of_readTag htag hne
    obtain ⟨F, hF⟩ := exists_payloadForm hne p
    have hends := (hF rest n).1 h
    exact (hF _ _).2 ((endsIn_append hends.le_length front).2 hends)

/-! ### Readers -/

namespace Maker

variable {α : Type} {make : Maker α} {v : α} {e : WireError}

theorem le_length_of_read (h : make.read t = .ok (v, n)) : n ≤ t.length := by
  obtain ⟨tag, f, p, htag, -, hp, -⟩ := read_eq_ok_iff.1 h
  exact readPayload_le_length htag hp

/-- **A value depends on its own bytes only.** -/
theorem read_take (h : make.read t = .ok (v, n)) (hn : 0 < n) (front : Tail) :
    make.read (t.take n ++ front) = .ok (v, n) := by
  obtain ⟨tag, f, p, htag, hmake, hp, hv⟩ := read_eq_ok_iff.1 h
  obtain ⟨htag', hp'⟩ := readPayload_take htag hp hn front
  exact read_eq_ok_iff.2 ⟨tag, f, p, htag', hmake, hp', hv⟩

/-- **A failure that is not passing** remains whatever stands in front of the string. -/
theorem read_append_of_error (h : make.read t = .error e) (ht : t ≠ []) (he : ¬e.Passing)
    (front : Tail) : make.read (t ++ front) = .error e := by
  rw [read_eq_error_iff, readTag_append ht]
  rcases read_eq_error_iff.1 h with htag | ⟨tag, htag, hmake | ⟨f, hmake, hp | ⟨p, n, hp, hv⟩⟩⟩
  · exact .inl htag
  · exact .inr ⟨tag, htag, .inl hmake⟩
  · exact absurd (readPayload_error hp) he
  · exact .inr ⟨tag, htag, .inr ⟨f, hmake, .inr ⟨p, n, readPayload_append htag hp front, hv⟩⟩⟩

end Maker

/-- The last bytes, read from the end. -/
theorem Tail.ofBytes_append_drop (p b : List UInt8) (n : Nat) :
    ofBytes (p ++ b.drop (b.length - n)) = (ofBytes b).take n ++ ofBytes p := by
  rw [ofBytes_append, ofBytes, ofBytes, ofBytes, List.take_reverse]

/-- **Every reader is local.** What it reads in `n` bytes, it reads from the last `n` bytes behind
any others. And where it fails on a string that is not empty, it fails in the same way with any
bytes in front, unless the string was too short or a size was wrong. -/
theorem reading_local (k : Reading) (b p : List UInt8) :
    (∀ v n, k.run (ofBytes b) = .ok (v, n) → 0 < n →
      n ≤ b.length ∧ k.run (ofBytes (p ++ b.drop (b.length - n))) = .ok (v, n)) ∧
    (∀ e, k.run (ofBytes b) = .error e → b ≠ [] → e ≠ .truncated → e ≠ .invalidSize →
      k.run (ofBytes (p ++ b)) = .error e) := by
  simp only [Reading.run_eq]
  refine ⟨fun v n h hn => ⟨?_, ?_⟩, fun e h hb htruncated hsize => ?_⟩
  · simpa using Maker.le_length_of_read h
  · rw [ofBytes_append_drop]
    exact Maker.read_take h hn (ofBytes p)
  · rw [ofBytes_append]
    refine Maker.read_append_of_error h ?_ ?_ (ofBytes p)
    · simpa [ofBytes] using hb
    · rintro (rfl | rfl)
      · exact htruncated rfl
      · exact hsize rfl

/-- A list of one byte behind another byte, and a number that is too large, behind two others. -/
theorem reading_local_instances :
    Reading.list.run (ofBytes [0xff, 7, 3, 0, 2, 2, 2, 70]) =
        .ok (⟨[3, 7], ⟨[0, 2], 2, false⟩⟩, 7) ∧
      Reading.list.run (ofBytes ([1, 2] ++ [7, 3, 0, 2, 2, 2, 70])) =
        .ok (⟨[3, 7], ⟨[0, 2], 2, false⟩⟩, 7) ∧
      (Reading.builtin .uint16).run (ofBytes [4, 0x80, 0x80, 21]) = .error .overflow ∧
      (Reading.builtin .uint16).run (ofBytes ([1, 2] ++ [4, 0x80, 0x80, 21])) =
        .error .overflow := by
  have hlist : Reading.list.run (ofBytes [0xff, 7, 3, 0, 2, 2, 2, 70]) =
      .ok (⟨[3, 7], ⟨[0, 2], 2, false⟩⟩, 7) := by rfl
  have hnumber : (Reading.builtin .uint16).run (ofBytes [4, 0x80, 0x80, 21]) =
      .error .overflow := by rfl
  exact ⟨hlist, ((reading_local .list _ [1, 2]).1 _ _ hlist (by decide)).2, hnumber,
    (reading_local (.builtin .uint16) _ [1, 2]).2 _ hnumber (by decide) nofun nofun⟩

end Backwire.Wire
