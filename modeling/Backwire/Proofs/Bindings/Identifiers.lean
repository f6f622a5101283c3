import Backwire.Bindings.Identifier
import Backwire.Proofs.Schema.Lexing
import Backwire.Proofs.Schema.Names
import Mathlib.Data.List.Nodup

/-!
# Which names become one identifier

A name that may not be an identifier gets an underscore behind it, so it becomes what another name
is already. That is the only way in which two names are confused as they are (`Alike`): a word that
is kept for the language stays itself in raw form.

In snake case much more is lost. What is kept is the alphabet: the snake case of a name has small
letters, digits and underscores (`isSnake_snakeCase`). So it is told from everything that has a
capital letter, and it is found again in capitals (`shoutyCase_inj`).
-/

namespace Backwire.Bindings

open Schema

variable {v w : String}

/-! ### Letters -/

/-! The tables of letters begin with those of ASCII, and all that comes after them is not ASCII. -/

section Tables

variable {n : Nat}

theorem has_eq_false {stretches : Text.Stretches} (h : ∀ e ∈ stretches, 128 ≤ e.1) (hn : n < 128) :
    stretches.has n = false := by
  refine List.any_eq_false.2 fun e he => ?_
  have := h e he
  simp only [Bool.and_eq_true, decide_eq_true_eq]
  omega

theorem map_eq_self {shifts : Text.Shifts} (h : ∀ e ∈ shifts, 128 ≤ e.1) (hn : n < 128) :
    shifts.map n = n := by
  unfold Text.Shifts.map
  split
  · next hfind =>
    have hle := h _ (List.mem_of_find?_eq_some hfind)
    have hin := List.find?_some hfind
    simp only [Bool.and_eq_true, decide_eq_true_eq] at hin
    omega
  · rfl

theorem lookup_eq_none {α : Type} {l : List (Nat × α)} (h : ∀ e ∈ l, 128 ≤ e.1) (hn : n < 128) :
    l.lookup n = none := by
  rw [List.lookup_eq_none_iff]
  intro e he
  have := h e he
  rw [bne_iff_ne]
  omega

theorem has_capitals (hn : n < 128) : Text.capitals.has n = decide (65 ≤ n ∧ n ≤ 90) := by
  have htail : ∀ e ∈ Text.capitals.tail, 128 ≤ e.1 := by decide +kernel
  have hcons : Text.capitals.has n = ((65 ≤ n && n ≤ 90 && (n - 65) % 1 == 0) ||
    Text.Stretches.has Text.capitals.tail n) := rfl
  rw [hcons, has_eq_false htail hn, Nat.mod_one]
  simp

theorem map_cons (first last : Nat) (by_ : Int) (shifts : Text.Shifts) :
    Text.Shifts.map ((first, last, 1, by_) :: shifts) n =
      if first ≤ n ∧ n ≤ last then (n + by_).toNat else shifts.map n := by
  by_cases h : first ≤ n ∧ n ≤ last
  · simp [Text.Shifts.map, h, Nat.mod_one]
  · have hout : (first ≤ n && n ≤ last && (n - first) % 1 == 0) = false := by
      simpa [Nat.mod_one] using h
    simp only [Text.Shifts.map, List.find?_cons, hout, if_neg h]

theorem map_toSmall (hn : n < 128) :
    Text.toSmall.map n = if 65 ≤ n ∧ n ≤ 90 then n + 32 else n := by
  have htail : ∀ e ∈ Text.toSmall.tail, 128 ≤ e.1 := by decide +kernel
  have hcons : Text.toSmall = (65, 90, 1, 32) :: Text.toSmall.tail := rfl
  rw [hcons, map_cons, map_eq_self htail hn]
  rfl

theorem map_toCapital (hn : n < 128) :
    Text.toCapital.map n = if 97 ≤ n ∧ n ≤ 122 then n - 32 else n := by
  have htail : ∀ e ∈ Text.toCapital.tail, 128 ≤ e.1 := by decide +kernel
  have hcons : Text.toCapital = (97, 122, 1, -32) :: Text.toCapital.tail := rfl
  rw [hcons, map_cons, map_eq_self htail hn]
  split <;> omega

theorem lookup_longSmall (hn : n < 128) : Text.longSmall.lookup n = none :=
  lookup_eq_none (by decide) hn

theorem lookup_longCapital (hn : n < 128) : Text.longCapital.lookup n = none :=
  lookup_eq_none (by decide +kernel) hn

end Tables

section Letters

variable {c d : Char} {cs ds : List Char}

theorem isUpper_iff : c.isUpper ↔ 65 ≤ c.toNat ∧ c.toNat ≤ 90 := by
  simp [Char.isUpper, UInt32.le_iff_toNat_le, ← Char.toNat_val]

theorem isLower_iff : c.isLower ↔ 97 ≤ c.toNat ∧ c.toNat ≤ 122 := by
  simp [Char.isLower, UInt32.le_iff_toNat_le, ← Char.toNat_val]

/-- The characters of names in snake case. -/
def isSnakeChar (c : Char) : Bool := c == '_' || c.isLower || c.isDigit

theorem isSnakeChar_iff : isSnakeChar c ↔
    c.toNat = 95 ∨ (97 ≤ c.toNat ∧ c.toNat ≤ 122) ∨ 48 ≤ c.toNat ∧ c.toNat ≤ 57 := by
  have hunderscore : c = '_' ↔ c.toNat = 95 := Char.toNat_inj.symm
  simp [isSnakeChar, hunderscore, Char.isLower, Char.isDigit, UInt32.le_iff_toNat_le,
    ← Char.toNat_val, or_assoc]

/-- The characters of names are those of snake case and capital letters. -/
theorem isWordRest_eq (c : Char) : isWordRest c = (c.isUpper || isSnakeChar c) := by
  rw [isWordRest, isWordStart, isSnakeChar, Char.isAlpha]
  grind

theorem isCapital_of_isWordRest (h : isWordRest c) : Text.isCapital c = c.isUpper := by
  have hascii := toNat_of_isWordRest h
  rw [Bool.eq_iff_iff, isUpper_iff, Text.isCapital, has_capitals (by omega), decide_eq_true_eq]

theorem toNat_ofNat_of_lt {n : Nat} (h : n < 128) : (Char.ofNat n).toNat = n := by
  rw [Char.toNat_ofNat, if_pos (.inl (by omega))]

/-- A capital letter has one small form. -/
theorem exists_lower (h : c.isUpper) : ∃ d, Text.lower c = [d] ∧ isSnakeChar d := by
  rw [isUpper_iff] at h
  have hlower : Text.lower c = [Char.ofNat (c.toNat + 32)] := by
    rw [Text.lower, lookup_longSmall (by omega), map_toSmall (by omega), if_pos h]
  refine ⟨_, hlower, ?_⟩
  rw [isSnakeChar_iff, toNat_ofNat_of_lt (by omega)]
  omega

/-- A character of snake case has one capital form. -/
theorem exists_upper (h : isSnakeChar c) : ∃ d, Text.upper c = [d] ∧
    d.toNat = if 97 ≤ c.toNat ∧ c.toNat ≤ 122 then c.toNat - 32 else c.toNat := by
  rw [isSnakeChar_iff] at h
  refine ⟨_, by rw [Text.upper, lookup_longCapital (by omega)], ?_⟩
  rw [map_toCapital (by omega), toNat_ofNat_of_lt (by split <;> omega)]

/-- What is in snake case is found again in capitals. -/
theorem flatMap_upper_inj (hcs : ∀ c ∈ cs, isSnakeChar c) (hds : ∀ d ∈ ds, isSnakeChar d) :
    cs.flatMap Text.upper = ds.flatMap Text.upper ↔ cs = ds := by
  refine ⟨fun h => ?_, fun h => h ▸ rfl⟩
  induction cs generalizing ds with
  | nil =>
    cases ds with
    | nil => rfl
    | cons d ds =>
      obtain ⟨u, hu, -⟩ := exists_upper (hds d List.mem_cons_self)
      rw [List.flatMap_cons, hu] at h
      cases h
  | cons c cs ih =>
    obtain ⟨hc, hcs⟩ := List.forall_mem_cons.1 hcs
    obtain ⟨u, hu, hcu⟩ := exists_upper hc
    cases ds with
    | nil =>
      rw [List.flatMap_cons, hu] at h
      cases h
    | cons d ds =>
      obtain ⟨hd, hds⟩ := List.forall_mem_cons.1 hds
      obtain ⟨v, hv, hdv⟩ := exists_upper hd
      rw [List.flatMap_cons, List.flatMap_cons, hu, hv, List.singleton_append,
        List.singleton_append] at h
      obtain ⟨rfl, hrest⟩ := List.cons.inj h
      rw [ih hcs hds hrest]
      rw [isSnakeChar_iff] at hc hd
      rw [hcu] at hdv
      rw [List.cons.injEq, and_iff_left rfl, ← Char.toNat_inj]
      split at hdv <;> split at hdv <;> omega

end Letters

/-! ### Snake case -/

/-- A name of small letters, digits and underscores. -/
def IsSnake (s : String) : Prop := ∀ c ∈ s.toList, isSnakeChar c

theorem IsSnake.append (hv : IsSnake v) (hw : IsSnake w) : IsSnake (v ++ w) := by
  intro c hc
  rw [String.toList_append, List.mem_append] at hc
  exact hc.elim (hv c) (hw c)

theorem isSnakeChar_snakeFrom {previous : Option Char} {cs : List Char}
    (h : ∀ c ∈ cs, isWordRest c) : ∀ c ∈ snakeFrom previous cs, isSnakeChar c := by
  induction cs generalizing previous with
  | nil => nofun
  | cons c cs ih =>
    obtain ⟨hc, hcs⟩ := List.forall_mem_cons.1 h
    have hrest : ∀ d ∈ snakeFrom (some c) cs, isSnakeChar d := ih hcs
    have hcapital := isCapital_of_isWordRest hc
    rw [isWordRest_eq] at hc
    rw [snakeFrom, hcapital]
    cases hupper : c.isUpper with
    | true =>
      obtain ⟨d, hd, hsnake⟩ := exists_lower hupper
      have hboth : ∀ e ∈ Text.lower c ++ snakeFrom (some c) cs, isSnakeChar e := by
        rw [hd]
        exact List.forall_mem_cons.2 ⟨hsnake, hrest⟩
      cases beginsWord previous cs with
      | true => exact List.forall_mem_cons.2 ⟨rfl, hboth⟩
      | false => exact hboth
    | false =>
      rw [hupper, Bool.false_or] at hc
      exact List.forall_mem_cons.2 ⟨hc, hrest⟩

theorem isWordRest_of_isName (h : isName w) : ∀ c ∈ w.toList, isWordRest c := by
  unfold isName at h
  cases hw : w.toList with
  | nil => nofun
  | cons c cs =>
    rw [hw] at h
    obtain ⟨hc, hcs⟩ := Bool.and_eq_true_iff.1 h
    exact List.forall_mem_cons.2 ⟨isWordRest_of_isWordStart hc, List.all_eq_true.1 hcs⟩

theorem not_mem_of_isName (h : isName w) : '#' ∉ w.toList :=
  fun hmem => absurd (isWordRest_of_isName h _ hmem) (by decide)

theorem IsSnake.not_mem (h : IsSnake w) : '#' ∉ w.toList :=
  fun hmem => absurd (h _ hmem) (by decide)

/-- **Names in snake case** have no capital letters. -/
theorem isSnake_snakeCase (h : isName w) : IsSnake (snakeCase w) := by
  intro c hc
  rw [snakeCase, String.toList_ofList] at hc
  exact isSnakeChar_snakeFrom (isWordRest_of_isName h) c hc

/-- **In capitals, names differ as they do in snake case.** -/
theorem shoutyCase_eq_iff (h : isName w) {cs : List Char} (hcs : ∀ c ∈ cs, isSnakeChar c) :
    shoutyCase w = String.ofList (cs.flatMap Text.upper) ↔ snakeCase w = String.ofList cs := by
  rw [shoutyCase, snakeCase, String.ofList_inj, String.ofList_inj]
  exact flatMap_upper_inj (isSnakeChar_snakeFrom (isWordRest_of_isName h)) hcs

theorem shoutyCase_inj (hv : isName v) (hw : isName w) :
    shoutyCase v = shoutyCase w ↔ snakeCase v = snakeCase w :=
  shoutyCase_eq_iff hv (isSnakeChar_snakeFrom (isWordRest_of_isName hw))

/-- Nothing in capitals has a small letter. -/
theorem shoutyCase_ne (h : isName w) {c : Char} (hc : c ∈ v.toList) (hlower : c.isLower) :
    shoutyCase w ≠ v := by
  rintro rfl
  rw [shoutyCase, String.toList_ofList] at hc
  obtain ⟨d, hd, hmem⟩ := List.mem_flatMap.1 hc
  have hsnake := isSnakeChar_snakeFrom (isWordRest_of_isName h) d hd
  obtain ⟨u, hu, hcode⟩ := exists_upper hsnake
  obtain rfl := List.mem_singleton.1 (hu ▸ hmem)
  rw [isLower_iff] at hlower
  rw [isSnakeChar_iff] at hsnake
  split at hcode <;> omega

/-! ### Escapes -/

/-- The first of two names becomes the second one, because it may not be an identifier. -/
def Yields (v w : String) : Prop := v ∈ reservedWords ∧ w = v ++ "_"

/-- **Two names are confused** if one becomes the other, and so are a name and itself. -/
def Alike (v w : String) : Prop := v = w ∨ Yields v w ∨ Yields w v

/-- A name that is not reserved, and that no reserved word yields. -/
def IsFree (w : String) : Prop := w ∉ reservedWords ∧ ∀ r ∈ reservedWords, r ++ "_" ≠ w

instance : Decidable (Yields v w) := inferInstanceAs (Decidable (_ ∧ _))

instance : Decidable (Alike v w) := inferInstanceAs (Decidable (_ ∨ _ ∨ _))

instance : Decidable (IsFree w) :=
  inferInstanceAs (Decidable (_ ∧ ∀ r ∈ reservedWords, r ++ "_" ≠ w))

theorem alike_iff_eq (h : IsFree v) : Alike w v ↔ w = v := by
  refine ⟨?_, .inl⟩
  rintro (rfl | ⟨hw, rfl⟩ | ⟨hv, -⟩)
  · rfl
  · exact absurd rfl (h.2 w hw)
  · exact absurd hv h.1

/-- Reserved words begin with few characters. -/
theorem isFree_of_head? {c : Char} (h : w.toList.head? = some c) (hc : c ∉ ['s', 'S', 'c', '_']) :
    IsFree w := by
  have hheads : ∀ r ∈ reservedWords, ∀ d, (r.toList.head? = some d → d ∈ ['s', 'S', 'c', '_']) ∧
      ((r ++ "_").toList.head? = some d → d ∈ ['s', 'S', 'c', '_']) := by
    simp [reservedWords]
  exact ⟨fun hw => hc ((hheads w hw c).1 h), fun r hr heq => hc ((hheads r hr c).2 (heq ▸ h))⟩

namespace Identifier

theorem name_ofName (w : String) :
    (ofName w).name = if w ∈ reservedWords then w ++ "_" else w := by
  unfold ofName
  split
  · rfl
  · split <;> rfl

/-- No identifier is a reserved word. -/
theorem append_not_mem_reservedWords : ∀ r ∈ reservedWords, r ++ "_" ∉ reservedWords := by decide

/-- **Two names become one identifier if they are confused**, and only then. -/
theorem name_ofName_eq_iff : (ofName v).name = (ofName w).name ↔ Alike v w := by
  constructor
  · intro h
    rw [name_ofName, name_ofName] at h
    split at h <;> split at h
    · exact .inl ((String.append_left_inj _).1 h)
    · next hv _ => exact .inr (.inl ⟨hv, h.symm⟩)
    · next hw => exact .inr (.inr ⟨hw, h⟩)
    · exact .inl h
  · rintro (rfl | ⟨hv, rfl⟩ | ⟨hw, rfl⟩)
    · rfl
    · rw [name_ofName, name_ofName, if_pos hv, if_neg (append_not_mem_reservedWords _ hv)]
    · rw [name_ofName, name_ofName, if_pos hw, if_neg (append_not_mem_reservedWords _ hw)]

theorem ofName_inj : ofName v = ofName w ↔ Alike v w := by
  refine ⟨fun h => name_ofName_eq_iff.1 (congrArg name h), ?_⟩
  have hyields : ∀ r ∈ reservedWords, ofName r = ofName (r ++ "_") := by decide
  rintro (rfl | ⟨hv, rfl⟩ | ⟨hw, rfl⟩)
  · rfl
  · exact hyields v hv
  · exact (hyields w hw).symm

/-- What no name yields is the identifier of nothing but itself. -/
theorem name_ofName_eq_iff_of_free (h : IsFree v) : (ofName w).name = v ↔ w = v := by
  have hname : (ofName v).name = v := by rw [name_ofName, if_neg h.1]
  have hiff := name_ofName_eq_iff (v := w) (w := v)
  rw [hname] at hiff
  exact hiff.trans (alike_iff_eq h)

theorem name_ofName_mem_iff {fixed : List String} (h : ∀ v ∈ fixed, IsFree v) :
    (ofName w).name ∈ fixed ↔ w ∈ fixed := by
  constructor
  · intro hmem
    exact (name_ofName_eq_iff_of_free (h _ hmem)).1 rfl ▸ hmem
  · intro hmem
    rwa [(name_ofName_eq_iff_of_free (h _ hmem)).2 rfl]

/-- **Names that differ become identifiers that differ** if none of them yields another one. -/
theorem nodup_map_ofName_iff {ws : List String} (h : ws.Nodup) :
    (ws.map fun w => (ofName w).name).Nodup ↔ ∀ v ∈ ws, ∀ w ∈ ws, ¬Yields v w := by
  rw [List.nodup_map_iff_inj_on h]
  constructor
  · rintro hinj v hv w hw ⟨hreserved, rfl⟩
    have heq := hinj v hv _ hw (name_ofName_eq_iff.2 (.inr (.inl ⟨hreserved, rfl⟩)))
    exact append_not_mem_reservedWords v hreserved (heq ▸ hreserved)
  · intro hyields v hv w hw heq
    rcases name_ofName_eq_iff.1 heq with heq | hvw | hwv
    · exact heq
    · exact absurd hvw (hyields v hv w hw)
    · exact absurd hwv (hyields w hw v hv)

/-- **Identifiers that are written alike are one**, if no name holds the mark of raw ones. -/
theorem text_inj {i j : Identifier} (hi : '#' ∉ i.name.toList) (hj : '#' ∉ j.name.toList) :
    i.text = j.text ↔ i = j := by
  refine ⟨fun h => ?_, fun h => h ▸ rfl⟩
  have hraw (name : String) : '#' ∈ ("r#" ++ name).toList := by simp
  obtain ⟨v, rawV⟩ := i
  obtain ⟨w, rawW⟩ := j
  cases rawV <;> cases rawW
  · exact congrArg plain h
  · obtain rfl : v = "r#" ++ w := h
    exact absurd (hraw w) hi
  · obtain rfl : "r#" ++ v = w := h
    exact absurd (hraw v) hj
  · obtain rfl : v = w := (String.append_right_inj "r#").1 h
    rfl

theorem not_mem_ofName (h : '#' ∉ w.toList) : '#' ∉ (ofName w).name.toList := by
  rw [name_ofName]
  split
  · simpa using h
  · exact h

/-- **Names are written alike in code if they are confused**, and only then. -/
theorem text_ofName_inj (hv : '#' ∉ v.toList) (hw : '#' ∉ w.toList) :
    (ofName v).text = (ofName w).text ↔ Alike v w :=
  (text_inj (not_mem_ofName hv) (not_mem_ofName hw)).trans ofName_inj

/-- No identifier is a word or a sign of the language. -/
theorem text_ofName_not_mem (hw : IsSnake w) :
    (ofName w).text ∉ ["=", "(", ")", ",", "mut", "_"] := by
  have hyields : ∀ r ∈ reservedWords, r ++ "_" ∉ ["=", "(", ")", ",", "mut", "_"] := by decide
  have hwords : ∀ v ∈ ["=", "(", ")", ",", "mut", "_"],
      v ∈ reservedWords ∨ v ∈ keywords ∨ ¬IsSnake v := by
    simp [reservedWords, keywords, IsSnake, isSnakeChar_iff]
  unfold ofName
  split
  · next hreserved => exact hyields w hreserved
  · next hreserved =>
    split
    · have hraw : (⟨w, true⟩ : Identifier).text.toList = 'r' :: '#' :: w.toList := by
        simp [text]
      intro hmem
      have hlist := List.mem_map_of_mem (f := String.toList) hmem
      rw [hraw] at hlist
      simp at hlist
    · next hkeyword =>
      intro hmem
      rcases hwords w hmem with h | h | h
      · exact hreserved h
      · exact hkeyword h
      · exact h hw

end Identifier

end Backwire.Bindings
