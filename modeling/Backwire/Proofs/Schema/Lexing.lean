import Mathlib
import Backwire.Proofs.Schema.Names

/-!
# Written lexemes are read back

A lexeme that is written is the next token of the text it begins, whatever follows, except that a
word or an integer must not be followed by a character that would continue it
(`nextToken_written`). Blanks before a lexeme are passed over (`nextToken_blanks`). The other way
round, a text holds no word that could not be written (`isValid_of_mem_readFrom`).
-/

namespace Backwire.Schema

variable {p : Position} {c : Char} {cs rest : List Char} {l : Lexeme} {k k' : Cursor} {t : Token}

/-! ### Numbers -/

theorem digitsValue_toDigits (n : Nat) : digitsValue (Nat.toDigits 10 n) = n := by
  have h : digitsValue (Nat.toDigits 10 n) = Nat.ofDigitChars 10 (Nat.toDigits 10 n) 0 :=
    Nat.ofDigitChars_eq_foldl.symm
  rw [h, Nat.ofDigitChars_ten_toDigits]

/-- An integer is what its sign and its digits stand for. -/
theorem integerOf?_toDigits (v : Int64) :
    integerOf? (v.toInt < 0) (Nat.toDigits 10 v.toInt.natAbs) = some v := by
  have hlow : Int64.minValue.toInt ≤ v.toInt := Int64.minValue_le_toInt v
  have hhigh : v.toInt ≤ Int64.maxValue.toInt := Int64.toInt_le v
  have hvalue : (if v.toInt < 0 then -(v.toInt.natAbs : Int) else v.toInt.natAbs) = v.toInt := by
    split <;> omega
  simp only [integerOf?, digitsValue_toDigits, decide_eq_true_eq, hvalue]
  rw [if_pos ⟨hlow, hhigh⟩, Int64.ofInt_toInt]

/-- The decimal form of an integer: its digits, behind a minus sign if it is negative. -/
theorem written_integer (v : Int64) :
    (Lexeme.integer v).written
      = if v.toInt < 0 then '-' :: Nat.toDigits 10 v.toInt.natAbs
        else Nat.toDigits 10 v.toInt.natAbs := by
  rw [Lexeme.written, Int.toString_eq_repr, Int.repr_eq_if]
  by_cases h : v.toInt < 0
  · have habs : (-v.toInt).toNat = v.toInt.natAbs := by omega
    rw [if_neg (by omega), if_pos h, habs, String.toList_append, Nat.toList_repr]
    rfl
  · have habs : v.toInt.toNat = v.toInt.natAbs := by omega
    rw [if_pos (by omega), if_neg h, habs, Nat.toList_repr]

/-! ### Characters -/

/-- Whether a text does not continue a word or an integer before it. -/
def ends (rest : List Char) : Bool := rest.head?.all fun c => !isWordRest c

theorem isWordRest_of_isDigit (h : c.isDigit) : isWordRest c := by simp [isWordRest, h]

theorem isWordRest_of_isWordStart (h : isWordStart c) : isWordRest c := by simp [isWordRest, h]

theorem not_isDigit_of_isWordStart (h : isWordStart c) : c.isDigit = false := by
  simp only [isWordStart, Bool.or_eq_true, beq_iff_eq] at h
  obtain rfl | h := h
  · rfl
  · simp only [Char.isAlpha, Char.isUpper, Char.isLower, Bool.or_eq_true, Bool.and_eq_true,
      decide_eq_true_eq, ge_iff_le, UInt32.le_iff_toNat_le] at h
    simp only [Char.isDigit, Bool.and_eq_false_iff, decide_eq_false_iff_not,
      UInt32.le_iff_toNat_le, ge_iff_le]
    simp at h ⊢
    omega

theorem toNat_of_isWordRest (h : isWordRest c) : 48 ≤ c.toNat ∧ c.toNat ≤ 122 := by
  have hc : c.toNat = c.val.toNat := rfl
  simp only [isWordRest, isWordStart, Bool.or_eq_true, beq_iff_eq, Char.isAlpha, Char.isUpper,
    Char.isLower, Char.isDigit, Bool.and_eq_true, decide_eq_true_eq, ge_iff_le,
    UInt32.le_iff_toNat_le] at h
  obtain (rfl | h) | h := h
  · decide
  · simp at h
    omega
  · simp at h
    omega

/-- The characters of ASCII that show are not blank. -/
theorem not_isBlank_of_toNat (h : 33 ≤ c.toNat ∧ c.toNat ≤ 126) : Text.isBlank c = false := by
  simp only [Text.isBlank, Text.blanks, Text.Ranges.has, List.any_cons, List.any_nil]
  simp
  omega

theorem not_isWordRest_of_isBlank (h : Text.isBlank c) : isWordRest c = false := by
  refine Bool.eq_false_iff.2 fun hc => ?_
  have hshows := toNat_of_isWordRest hc
  rw [not_isBlank_of_toNat (by omega)] at h
  cases h

theorem ofChar?_eq_none (h : ∀ s : Symbol, s.char ≠ c) : Symbol.ofChar? c = none := by
  cases hs : Symbol.ofChar? c with
  | none => rfl
  | some s => exact absurd (Symbol.char_of_ofChar? hs) (h s)

theorem not_isWordRest_char (s : Symbol) : isWordRest s.char = false := by cases s <;> rfl

/-- A character of a word or an integer is no symbol. -/
theorem ofChar?_of_isWordRest (h : isWordRest c) : Symbol.ofChar? c = none :=
  ofChar?_eq_none fun s hs => by simp [← hs, not_isWordRest_char] at h

/-- What ends a word or an integer has nothing to add to it. -/
theorem takeWhile_of_ends {f : Char → Bool} (hf : ∀ c, f c → isWordRest c) (h : ends rest) :
    rest.takeWhile f = [] := by
  cases rest with
  | nil => rfl
  | cons c cs =>
    have hc : ¬ f c := fun hc => by simp [ends, hf c hc] at h
    rw [List.takeWhile_cons_of_neg hc]

theorem dropWhile_of_ends {f : Char → Bool} (hf : ∀ c, f c → isWordRest c) (h : ends rest) :
    rest.dropWhile f = rest := by
  cases rest with
  | nil => rfl
  | cons c cs =>
    have hc : ¬ f c := fun hc => by simp [ends, hf c hc] at h
    rw [List.dropWhile_cons_of_neg hc]

/-! ### Lexemes -/

/-- Whether what follows a lexeme could continue it. -/
def Lexeme.isOpen : Lexeme → Bool
  | word _ => true
  | integer _ => true
  | _ => false

/-- Only words and integers continue others. -/
theorem Lexeme.ends_written (h : l.isOpen = false) (rest : List Char) :
    ends (l.written ++ rest) := by
  cases l with
  | word => cases h
  | integer => cases h
  | text => rfl
  | symbol mark => simp [written, ends, not_isWordRest_char]

/-- A character begins a lexeme if it shows and begins no comment. -/
structure Lexeme.Leads (c : Char) : Prop where
  shows : 33 ≤ c.toNat ∧ c.toNat ≤ 126
  ne_slash : c ≠ '/'

theorem Lexeme.leads_of_isWordRest (h : isWordRest c) : Lexeme.Leads c := by
  have hc := toNat_of_isWordRest h
  refine ⟨by omega, ?_⟩
  rintro rfl
  exact absurd h (by decide)

/-- A written lexeme is scanned back, and no more than it, where `rest` follows. -/
def Lexeme.ScannedBefore (rest : List Char) (l : Lexeme) : Prop :=
  ∃ c cs, l.written = c :: cs ∧ Leads c
    ∧ ∀ p, scanLexeme p c (cs ++ rest) = .ok (l, ⟨p.after l.written, rest⟩)

/-- A word is as long as it can be. -/
theorem scannedBefore_word {name : String} (hname : isName name) (hr : ends rest) :
    (Lexeme.word name).ScannedBefore rest := by
  rw [isName] at hname
  split at hname
  · cases hname
  · next c cs hwritten =>
    simp only [Bool.and_eq_true, List.all_eq_true] at hname
    obtain ⟨hc, hcs⟩ := hname
    have hword := isWordRest_of_isWordStart hc
    have hquote : c ≠ '"' := by rintro rfl; exact absurd hc (by decide)
    have hminus : c ≠ '-' := by rintro rfl; exact absurd hc (by decide)
    refine ⟨c, cs, hwritten, Lexeme.leads_of_isWordRest hword, fun p => ?_⟩
    simp only [scanLexeme, ofChar?_of_isWordRest hword, if_neg hquote, if_neg hminus,
      not_isDigit_of_isWordStart hc, Bool.false_eq_true, if_false, if_pos hc,
      List.takeWhile_append_of_pos hcs, List.dropWhile_append_of_pos hcs,
      takeWhile_of_ends (fun _ => id) hr, dropWhile_of_ends (fun _ => id) hr, List.append_nil]
    rw [Lexeme.written, ← hwritten, String.ofList_toList]

/-- The digits of an integer are as many as they can be. -/
theorem scanInteger_toDigits (v : Int64) {sign : List Char} (hsign : (sign ≠ []) = (v.toInt < 0))
    (hr : ends rest) (p : Position) :
    scanInteger p sign (Nat.toDigits 10 v.toInt.natAbs ++ rest)
      = .ok (.integer v, ⟨p.after (sign ++ Nat.toDigits 10 v.toInt.natAbs), rest⟩) := by
  have hdigits : ∀ d ∈ Nat.toDigits 10 v.toInt.natAbs, d.isDigit := fun d hd =>
    Nat.isDigit_of_mem_toDigits (by decide) (by decide) hd
  have hdigit : ∀ d : Char, d.isDigit → isWordRest d := fun _ => isWordRest_of_isDigit
  have hend : rest.head?.any isWordStart = false := by
    cases rest with
    | nil => rfl
    | cons c cs => simp_all [ends, isWordRest]
  simp only [scanInteger, List.takeWhile_append_of_pos hdigits,
    List.dropWhile_append_of_pos hdigits, takeWhile_of_ends hdigit hr,
    dropWhile_of_ends hdigit hr, List.append_nil, hend, Bool.false_eq_true, if_false, hsign,
    integerOf?_toDigits]

theorem scannedBefore_integer (v : Int64) (hr : ends rest) :
    (Lexeme.integer v).ScannedBefore rest := by
  obtain ⟨d, ds, hds⟩ := List.exists_cons_of_ne_nil (Nat.toDigits_ne_nil (b := 10)
    (n := v.toInt.natAbs))
  have hd : d.isDigit :=
    Nat.isDigit_of_mem_toDigits (by decide) (by decide) (hds ▸ List.mem_cons_self)
  by_cases hv : v.toInt < 0
  · have hwritten : (Lexeme.integer v).written = '-' :: Nat.toDigits 10 v.toInt.natAbs := by
      rw [written_integer, if_pos hv]
    refine ⟨_, _, hwritten, ⟨by decide, by decide⟩, fun p => ?_⟩
    have hsign : (['-'] ≠ []) = (v.toInt < 0) := by simp [hv]
    have hscan := scanInteger_toDigits v hsign hr p
    have hnext : (Nat.toDigits 10 v.toInt.natAbs ++ rest).head?.any Char.isDigit := by
      simp [hds, hd]
    rw [scanLexeme, show Symbol.ofChar? '-' = none from rfl]
    simp only [hnext, if_true]
    rw [hwritten]
    exact hscan
  · have hwritten : (Lexeme.integer v).written = d :: ds := by
      rw [written_integer, if_neg hv, hds]
    have hword := isWordRest_of_isDigit hd
    have hquote : d ≠ '"' := by rintro rfl; exact absurd hd (by decide)
    have hminus : d ≠ '-' := by rintro rfl; exact absurd hd (by decide)
    refine ⟨_, _, hwritten, Lexeme.leads_of_isWordRest hword, fun p => ?_⟩
    have hsign : (([] : List Char) ≠ []) = (v.toInt < 0) := by simpa using hv
    have hscan := scanInteger_toDigits v hsign hr p
    simp only [scanLexeme, ofChar?_of_isWordRest hword, if_neg hquote, if_neg hminus, if_pos hd]
    rw [hwritten, ← List.cons_append, ← hds]
    exact hscan

/-- A quoted text ends with its closing quote. -/
theorem scannedBefore_text (value : String) : (Lexeme.text value).ScannedBefore rest := by
  refine ⟨'"', value.toList.flatMap Quoted.escape ++ ['"'], rfl, ⟨by decide, by decide⟩,
    fun p => ?_⟩
  rw [scanLexeme, show Symbol.ofChar? '"' = none from rfl, List.append_assoc]
  simp only [if_true, List.singleton_append, Quoted.scan_escaped, String.ofList_toList]
  rfl

theorem scannedBefore_symbol (mark : Symbol) : (Lexeme.symbol mark).ScannedBefore rest := by
  refine ⟨mark.char, [], rfl, ⟨by cases mark <;> decide, by cases mark <;> decide⟩, fun p => ?_⟩
  simp [scanLexeme, Lexeme.written]

/-- Every lexeme that can be written is scanned back, unless what follows continues it. -/
theorem scannedBefore_of_isValid (hl : l.isValid) (hr : l.isOpen → ends rest) :
    l.ScannedBefore rest := by
  cases l with
  | word name => exact scannedBefore_word hl (hr rfl)
  | integer v => exact scannedBefore_integer v (hr rfl)
  | text value => exact scannedBefore_text value
  | symbol mark => exact scannedBefore_symbol mark

/-! ### Tokens -/

theorem skip_of_leads (h : Lexeme.Leads c) : skip .between p (c :: cs) = .ok ⟨p, c :: cs⟩ := by
  rw [skip.eq_def]
  simp [not_isBlank_of_toNat h.shows, h.ne_slash]

/-- **A written lexeme is the next token**, at the place where it stands. -/
theorem nextToken_written (hl : l.isValid) (hr : l.isOpen → ends rest) (p : Position) :
    nextToken ⟨p, l.written ++ rest⟩ = .ok (.inr (⟨l, p⟩, ⟨p.after l.written, rest⟩)) := by
  obtain ⟨c, cs, hwritten, hlead, hscan⟩ := scannedBefore_of_isValid hl hr
  have hcons : l.written ++ rest = c :: (cs ++ rest) := by rw [hwritten, List.cons_append]
  simp only [nextToken, hcons, skip_of_leads hlead, hscan]

theorem skip_blanks (h : ∀ c ∈ cs, Text.isBlank c) (p : Position) :
    skip .between p (cs ++ rest) = skip .between (p.after cs) rest := by
  induction cs generalizing p with
  | nil => rfl
  | cons c cs ih =>
    rw [List.forall_mem_cons] at h
    rw [List.cons_append, skip.eq_def]
    simp only [h.1, if_true]
    exact ih h.2 _

/-- Blanks are passed over. -/
theorem nextToken_blanks (h : ∀ c ∈ cs, Text.isBlank c) (p : Position) :
    nextToken ⟨p, cs ++ rest⟩ = nextToken ⟨p.after cs, rest⟩ := by
  simp only [nextToken, skip_blanks h]

/-! ### Reading all tokens -/

theorem readFrom_of_end {stop : Position} (h : nextToken k = .ok (.inl stop)) :
    readFrom k = ⟨[], .ok stop⟩ := by
  rw [readFrom]
  split <;> simp_all

theorem readFrom_of_token (h : nextToken k = .ok (.inr (t, k'))) :
    readFrom k = ⟨t :: (readFrom k').tokens, (readFrom k').ending⟩ := by
  rw [readFrom]
  split <;> simp_all

theorem readFrom_congr (h : nextToken k = nextToken k') : readFrom k = readFrom k' := by
  rw [readFrom, readFrom]
  split <;> split <;> simp_all

theorem isValid_of_scanInteger {sign : List Char} (h : scanInteger p sign cs = .ok (l, k)) :
    l.isValid := by
  unfold scanInteger at h
  simp only at h
  split at h
  · cases h
  · split at h
    · cases h; rfl
    · cases h

/-- A word that is scanned can be written. -/
theorem isValid_of_scanLexeme (h : scanLexeme p c cs = .ok (l, k)) : l.isValid := by
  unfold scanLexeme at h
  split at h
  · cases h; rfl
  split at h
  · split at h
    · cases h
    · cases h; rfl
  split at h
  · split at h
    · exact isValid_of_scanInteger h
    · cases h
  split at h
  · exact isValid_of_scanInteger h
  split at h
  · next hc =>
    cases h
    simp [Lexeme.isValid, isName, hc]
  · cases h

theorem isValid_of_nextToken (h : nextToken k = .ok (.inr (t, k'))) : t.lexeme.isValid := by
  unfold nextToken at h
  split at h
  · cases h
  · cases h
  · split at h
    · cases h
    · next hscan => cases h; exact isValid_of_scanLexeme hscan

/-- **Every word of a text can be written.** -/
theorem isValid_of_mem_readFrom (h : t ∈ (readFrom k).tokens) : t.lexeme.isValid := by
  fun_induction readFrom k with
  | case1 => simp at h
  | case2 => simp at h
  | case3 k u k' hnext r ih =>
    obtain rfl | h := List.mem_cons.1 h
    · exact isValid_of_nextToken hnext
    · exact ih h

end Backwire.Schema
