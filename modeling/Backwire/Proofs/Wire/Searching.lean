import Backwire.Proofs.Wire.Table

/-!
# Searches in any table

A table that is read from bytes may hold anything: its tags need not ascend, and one tag may stand
twice. Then halving still comes to an end, though it may miss a tag. This module follows a search
step by step. The indices it looks at (`looks`) are determined by the tags that it reads there, so
the search that reads tags alone and the one that reads whole entries look at the same entries and
come to the same end (`MessageTable.searches_agree`). What is found is an entry with the tag, and no
more entries are looked at than the length of the table has binary digits.
-/

namespace Backwire.Wire

variable {probe probe' : Nat → Option UInt16} {tag : UInt16} {lo hi i k : Nat}

/-- The indices at which a search looks, in turn. -/
def looks (probe : Nat → Option UInt16) (tag : UInt16) (lo hi : Nat) : List Nat :=
  if lo < hi then
    let mid := lo + (hi - lo) / 2
    match probe mid with
    | none => [mid]
    | some t =>
      if t < tag then mid :: looks probe tag (mid + 1) hi
      else if tag < t then mid :: looks probe tag lo mid
      else [mid]
  else []
termination_by hi - lo

/-- **A search finds the index at which it looks and sees the tag.** -/
theorem bisect_eq_find?_looks (probe : Nat → Option UInt16) (tag : UInt16) (lo hi : Nat) :
    bisect probe tag lo hi = (looks probe tag lo hi).find? fun i => probe i = some tag := by
  fun_induction looks probe tag lo hi with
  | case1 lo hi hlohi mid hmid =>
    rw [bisect, if_pos hlohi]
    simp [mid, hmid]
  | case2 lo hi hlohi mid t hmid htag ih =>
    have hne : t ≠ tag := fun h => UInt16.lt_irrefl _ (h ▸ htag)
    rw [bisect, if_pos hlohi, List.find?_cons_of_neg (by simpa [hmid] using hne), ← ih]
    simp [mid, hmid, htag]
  | case3 lo hi hlohi mid t hmid htag htag' ih =>
    have hne : t ≠ tag := fun h => UInt16.lt_irrefl _ (h ▸ htag')
    rw [bisect, if_pos hlohi, List.find?_cons_of_neg (by simpa [hmid] using hne), ← ih]
    simp [mid, hmid, htag, htag']
  | case4 lo hi hlohi mid t hmid htag htag' =>
    have heq : t = tag := UInt16.le_antisymm (UInt16.not_lt.1 htag') (UInt16.not_lt.1 htag)
    rw [bisect, if_pos hlohi, List.find?_cons_of_pos (by simpa [hmid] using heq)]
    simp [mid, hmid, htag, htag']
  | case5 lo hi hlohi => rw [bisect, if_neg hlohi, List.find?_nil]

/-- A search looks between its limits only. -/
theorem lt_of_mem_looks (h : i ∈ looks probe tag lo hi) : i < hi := by
  fun_induction looks probe tag lo hi with
  | case1 lo hi hlohi mid hmid =>
    rw [List.mem_singleton] at h
    omega
  | case2 lo hi hlohi mid t hmid htag ih =>
    rcases List.mem_cons.1 h with rfl | h
    · omega
    · exact ih h
  | case3 lo hi hlohi mid t hmid htag htag' ih =>
    rcases List.mem_cons.1 h with rfl | h
    · omega
    · exact (ih h).trans (by omega)
  | case4 lo hi hlohi mid t hmid htag htag' =>
    rw [List.mem_singleton] at h
    omega
  | case5 => cases h

/-- Searches that see the same tags look at the same places. -/
theorem looks_congr (h : ∀ i < hi, probe i = probe' i) :
    looks probe tag lo hi = looks probe' tag lo hi := by
  fun_induction looks probe tag lo hi with
  | case1 lo hi hlohi mid hmid =>
    rw [h mid (by omega)] at hmid
    rw [looks, if_pos hlohi]
    simp [mid, hmid]
  | case2 lo hi hlohi mid t hmid htag ih =>
    rw [h mid (by omega)] at hmid
    rw [ih h, looks.eq_def probe' tag lo, if_pos hlohi]
    simp [mid, hmid, htag]
  | case3 lo hi hlohi mid t hmid htag htag' ih =>
    rw [h mid (by omega)] at hmid
    rw [ih fun i hi => h i (by omega), looks.eq_def probe' tag lo hi, if_pos hlohi]
    simp [mid, hmid, htag, htag']
  | case4 lo hi hlohi mid t hmid htag htag' =>
    rw [h mid (by omega)] at hmid
    rw [looks, if_pos hlohi]
    simp [mid, hmid, htag, htag']
  | case5 lo hi hlohi => rw [looks, if_neg hlohi]

/-- **Every look halves what is left.** -/
theorem length_looks_le (h : hi - lo < 2 ^ k) : (looks probe tag lo hi).length ≤ k := by
  induction k generalizing lo hi with
  | zero =>
    rw [looks, if_neg (by omega)]
    exact Nat.le_refl 0
  | succ k ih =>
    rw [Nat.pow_succ] at h
    unfold looks
    split
    · dsimp only
      split
      · exact Nat.succ_le_succ (Nat.zero_le k)
      · split
        · exact Nat.succ_le_succ (ih (by omega))
        · split
          · exact Nat.succ_le_succ (ih (by omega))
          · exact Nat.succ_le_succ (Nat.zero_le k)
    · exact Nat.zero_le _

/-! ### The two searches of a table -/

namespace MessageTable

/-- The tag of an entry, read with the whole entry. -/
def entryTag? (t : MessageTable) (i : Nat) : Option UInt16 := (t.entry? i).map Entry.tag

/-- An entry that is in the table is read the same way on its own. -/
theorem tagAt?_eq_entryTag? {t : MessageTable} (hi : i < t.length) :
    t.tagAt? i = t.entryTag? i := by
  rw [← length_entries] at hi
  have hentry : t.entries[i]? = some t.entries[i] := List.getElem?_eq_getElem hi
  rw [(tagAt?_stopAt? hentry).1, entryTag?, entry?, hentry, Option.map_some]

theorem looks_tagAt?_eq (t : MessageTable) (tag : UInt16) :
    looks t.tagAt? tag 0 t.length = looks t.entryTag? tag 0 t.length :=
  looks_congr fun _ => tagAt?_eq_entryTag?

/-- Reading tags alone leads to the same index as reading whole entries. -/
theorem find?_eq_bisect (t : MessageTable) (tag : UInt16) :
    t.find? tag = bisect t.entryTag? tag 0 t.length := by
  rw [find?, bisect_eq_find?_looks, bisect_eq_find?_looks, ← looks_tagAt?_eq]
  refine List.find?_congr fun i hi => ?_
  rw [tagAt?_eq_entryTag? (lt_of_mem_looks hi)]

/-- What a search finds is an entry with the tag. -/
theorem entry?_of_find? {t : MessageTable} (h : t.find? tag = some i) :
    ∃ stop, t.entry? i = some ⟨tag, stop⟩ ∧ t.stopAt? i = some stop := by
  rw [find?, bisect_eq_find?_looks] at h
  have hi := lt_of_mem_looks (List.mem_of_find?_eq_some h)
  have htag : t.tagAt? i = some tag := by simpa using List.find?_some h
  rw [tagAt?_eq_entryTag? hi, entryTag?, Option.map_eq_some_iff] at htag
  obtain ⟨e, he, rfl⟩ := htag
  exact ⟨e.stop, he, (tagAt?_stopAt? he).2⟩

/-- A search that finds an index yields the offset of the entry there. -/
theorem stop?_of_find? {t : MessageTable} (h : t.find? tag = some i) :
    ∃ stop, t.entry? i = some ⟨tag, stop⟩ ∧ t.stop? tag = some stop ∧
      t.stopChecked? tag = some stop := by
  obtain ⟨stop, hentry, hstop⟩ := entry?_of_find? h
  have hchecked := h
  rw [find?_eq_bisect] at hchecked
  refine ⟨stop, hentry, by rw [stop?, h]; exact hstop, ?_⟩
  unfold entryTag? at hchecked
  rw [stopChecked?, hchecked]
  dsimp only
  rw [stopAtIndex?, hentry, Option.map_some]

theorem stop?_of_find?_eq_none {t : MessageTable} (h : t.find? tag = none) :
    t.stop? tag = none ∧ t.stopChecked? tag = none := by
  have hchecked := h
  rw [find?_eq_bisect] at hchecked
  unfold entryTag? at hchecked
  exact ⟨by rw [stop?, h], by rw [stopChecked?, hchecked]⟩

/-- **Both searches agree on every table**, whatever bytes it was made of. They look at the same
entries, all of which are there, and at no more of them than the length of the table has binary
digits; they find the same, and it is an entry with the tag. -/
theorem searches_agree (t : MessageTable) (tag : UInt16) :
    t.stop? tag = t.stopChecked? tag ∧
    t.contains tag = (t.stop? tag).isSome ∧
    (∀ stop, t.stop? tag = some stop →
      ∃ i, t.entry? i = some ⟨tag, stop⟩ ∧ t.stopAtIndex? i = some stop) ∧
    looks t.tagAt? tag 0 t.length = looks t.entryTag? tag 0 t.length ∧
    (∀ i ∈ looks t.tagAt? tag 0 t.length, i < t.length) ∧
    (looks t.tagAt? tag 0 t.length).length ≤ Nat.size t.length := by
  have hlooks : (looks t.tagAt? tag 0 t.length).length ≤ Nat.size t.length :=
    length_looks_le (Nat.lt_size_self t.length)
  rw [contains]
  cases hfind : t.find? tag with
  | none =>
    obtain ⟨hstop, hchecked⟩ := stop?_of_find?_eq_none hfind
    rw [hstop, hchecked]
    exact ⟨rfl, rfl, fun stop h => absurd h.symm (Option.some_ne_none stop), looks_tagAt?_eq t tag,
      fun _ => lt_of_mem_looks, hlooks⟩
  | some i =>
    obtain ⟨stop, hentry, hstop, hchecked⟩ := stop?_of_find? hfind
    rw [hstop, hchecked]
    refine ⟨rfl, rfl, ?_, looks_tagAt?_eq t tag, fun _ => lt_of_mem_looks, hlooks⟩
    rintro _ ⟨⟩
    exact ⟨i, hentry, by rw [stopAtIndex?, hentry, Option.map_some]⟩

/-- A table of two entries whose tags descend. -/
def descending : MessageTable := ⟨[2, 0, 1, 1, 0, 2], 2, false⟩

/-- Where tags do not ascend, both searches find one and miss the other. -/
theorem searches_agree_descending :
    descending.stop? 1 = some 2 ∧ descending.stopChecked? 1 = some 2 ∧
    (∃ i, descending.entry? i = some ⟨1, 2⟩ ∧ descending.stopAtIndex? i = some 2) ∧
    descending.stop? 2 = none ∧ descending.stopChecked? 2 = none := by
  have hfound : descending.stop? 1 = some 2 := by cbv
  have hmissed : descending.stop? 2 = none := by cbv
  obtain ⟨hsame, -, hentry, -⟩ := searches_agree descending 1
  obtain ⟨hsame', -⟩ := searches_agree descending 2
  exact ⟨hfound, hsame ▸ hfound, hentry 2 hfound, hmissed, hsame' ▸ hmissed⟩

end MessageTable

end Backwire.Wire
