import Backwire.Proofs.Schema.Lexing

/-!
# Lexemes between blanks and comments

Blanks and comments may stand before, between and behind lexemes, and none of them is part of one. A
reader that skips them arrives behind them whatever follows (`skip_text`): a comment to the end of
the line ends with the first line break, and the other kind with the first `*/`, of which no
character may be the second one of the mark that opens it. So a text is read as its lexemes
(`readFrom_strewn`), each at the place to which the text before it leads.

Places are counted character by character while reading, in counters of 32 bits that start again
from zero. `after_start` says what they come to: the line breaks before, and the characters behind
the last of them, as far as the counters hold these numbers. They hold them in every text of less
than 4294967295 characters (`isBehind_placeBehind`).
-/

namespace Backwire.Schema

variable {p opening : Position} {rest body : List Char}

/-! ### Gaps -/

/-- What may stand between lexemes. -/
inductive Gap where
  /-- A blank character. -/
  | blank (c : Char)
  /-- A comment that ends with its line. -/
  | line (body : List Char)
  /-- A comment between its marks. -/
  | block (body : List Char)
  deriving DecidableEq, Repr

namespace Gap

/-- The text of a gap. -/
def text : Gap → List Char
  | blank c => [c]
  | line body => '/' :: '/' :: (body ++ ['\n'])
  | block body => '/' :: '*' :: (body ++ ['*', '/'])

/-- A blank is one, and no comment holds what would end it. -/
def Sound : Gap → Prop
  | blank c => Text.isBlank c
  | line body => '\n' ∉ body
  | block body => ¬ ['*', '/'] <:+: body

instance : (g : Gap) → Decidable g.Sound
  | blank c => inferInstanceAs (Decidable (Text.isBlank c))
  | line body => inferInstanceAs (Decidable ('\n' ∉ body))
  | block body => inferInstanceAs (Decidable (¬ ['*', '/'] <:+: body))

end Gap

theorem skip_line (h : '\n' ∉ body) (p : Position) :
    skip .line p (body ++ '\n' :: rest) = skip .between (p.after (body ++ ['\n'])) rest := by
  induction body generalizing p with
  | nil => rw [List.nil_append, skip]; rfl
  | cons c body ih =>
    rw [List.mem_cons, not_or] at h
    rw [List.cons_append, skip, if_neg (Ne.symm h.1), ih h.2]
    rfl

/-- A comment ends with the first `*/`. The star of its opening mark is not looked at, but a star
that was just read is. -/
theorem skip_block (h : ¬ ['*', '/'] <:+: body) {star : Bool}
    (hstar : star → body.head? ≠ some '/') (p : Position) :
    skip (.block opening star) p (body ++ '*' :: '/' :: rest) =
      skip .between (p.after (body ++ ['*', '/'])) rest := by
  induction body generalizing p star with
  | nil =>
    rw [List.nil_append, skip, if_neg (by decide +revert), skip]
    rfl
  | cons c body ih =>
    have hend : ¬ (star ∧ c = '/') := fun hstarred =>
      hstar hstarred.1 (by rw [hstarred.2]; rfl)
    have hbody : ¬ ['*', '/'] <:+: body := fun hin => h (List.infix_cons_iff.2 (.inr hin))
    have hnext : (c == '*') = true → body.head? ≠ some '/' := by
      intro hc hhead
      obtain ⟨after, rfl⟩ := List.head?_eq_some_iff.1 hhead
      rw [beq_iff_eq.1 hc] at h
      exact h ⟨[], after, rfl⟩
    rw [List.cons_append, skip, if_neg hend, ih hbody hnext]
    rfl

/-- **A gap is passed over**, whatever follows it. -/
theorem Gap.skip_text {g : Gap} (h : g.Sound) (p : Position) :
    skip .between p (g.text ++ rest) = skip .between (p.after g.text) rest := by
  cases g with
  | blank c => exact skip_blanks (List.forall_mem_singleton.2 h) p
  | line body =>
    have htext : (line body).text ++ rest = '/' :: '/' :: (body ++ '\n' :: rest) := by simp [text]
    rw [htext, skip.eq_def]
    exact skip_line h _
  | block body =>
    have htext : (block body).text ++ rest = '/' :: '*' :: (body ++ '*' :: '/' :: rest) := by
      simp [text]
    rw [htext, skip.eq_def]
    -- the star of the opening mark does not count
    have hopening : false = true → body.head? ≠ some '/' := fun hstar => by cases hstar
    exact skip_block h hopening _

/-- The text of gaps. -/
def gapsText (gs : List Gap) : List Char := gs.flatMap Gap.text

theorem skip_gapsText {gs : List Gap} (h : ∀ g ∈ gs, g.Sound) (p : Position) :
    skip .between p (gapsText gs ++ rest) = skip .between (p.after (gapsText gs)) rest := by
  induction gs generalizing p with
  | nil => rfl
  | cons g gs ih =>
    obtain ⟨hg, hgs⟩ := List.forall_mem_cons.1 h
    rw [gapsText, List.flatMap_cons, List.append_assoc, g.skip_text hg, ← gapsText, ih hgs,
      Position.after_append]

theorem nextToken_gapsText {gs : List Gap} (h : ∀ g ∈ gs, g.Sound) (p : Position) :
    nextToken ⟨p, gapsText gs ++ rest⟩ = nextToken ⟨p.after (gapsText gs), rest⟩ := by
  simp only [nextToken, skip_gapsText h]

/-- A gap continues no lexeme. -/
theorem Gap.ends_text {g : Gap} (h : g.Sound) (rest : List Char) : ends (g.text ++ rest) := by
  cases g with
  | blank c => simp [text, ends, not_isWordRest_of_isBlank h]
  | line body => rfl
  | block body => rfl

/-! ### Lexemes between gaps -/

/-- A lexeme behind gaps. -/
structure Placed where
  gaps : List Gap
  lexeme : Lexeme
  deriving DecidableEq, Repr

/-- The text of a lexeme and of the gaps before it. -/
def Placed.text (x : Placed) : List Char := gapsText x.gaps ++ x.lexeme.written

/-- The text of lexemes and of the gaps before each. -/
def placedText (xs : List Placed) : List Char := xs.flatMap Placed.text

/-- The lexemes can be written, the gaps are sound, and a word or an integer has a gap between it
and the word or integer before it. -/
structure Strewn (xs : List Placed) (last : List Gap) : Prop where
  valid : ∀ x ∈ xs, x.lexeme.isValid
  sound : ∀ x ∈ xs, ∀ g ∈ x.gaps, g.Sound
  sound_last : ∀ g ∈ last, g.Sound
  apart : xs.IsChain fun x y => x.lexeme.isOpen → y.lexeme.isOpen → y.gaps ≠ []

section Strewn

variable {x : Placed} {xs : List Placed} {last : List Gap}

theorem Strewn.tail (h : Strewn (x :: xs) last) : Strewn xs last where
  valid := (List.forall_mem_cons.1 h.valid).2
  sound := (List.forall_mem_cons.1 h.sound).2
  sound_last := h.sound_last
  apart := h.apart.tail

/-- What follows a word or an integer does not continue it. -/
theorem Strewn.ends (h : Strewn (x :: xs) last) (hx : x.lexeme.isOpen) :
    Schema.ends (placedText xs ++ gapsText last) := by
  match xs, last, h with
  | [], [], _ => rfl
  | [], g :: gs, h =>
    have hg := h.sound_last g List.mem_cons_self
    exact g.ends_text hg (gapsText gs)
  | ⟨g :: gs, l⟩ :: ys, last, h =>
    have hg := h.tail.sound _ List.mem_cons_self g List.mem_cons_self
    simpa [placedText, Placed.text, gapsText] using g.ends_text hg _
  | ⟨[], l⟩ :: ys, last, h =>
    have hl : l.isOpen = false := by
      refine Bool.eq_false_iff.2 fun hl => ?_
      exact (List.isChain_cons_cons.1 h.apart).1 hx hl rfl
    simpa [placedText, Placed.text, gapsText] using Lexeme.ends_written hl _

/-- The tokens of lexemes between gaps, from a place on. -/
def placedTokens (p : Position) : List Placed → List Token
  | [] => []
  | x :: xs => ⟨x.lexeme, p.after (gapsText x.gaps)⟩ :: placedTokens (p.after x.text) xs

/-- **Gaps are no part of what is read**: a text is read as its lexemes, each at the place where it
stands. -/
theorem readFrom_strewn (h : Strewn xs last) (p : Position) :
    readFrom ⟨p, placedText xs ++ gapsText last⟩ =
      ⟨placedTokens p xs, .ok (p.after (placedText xs ++ gapsText last))⟩ := by
  induction xs generalizing p with
  | nil =>
    have hend : nextToken ⟨p, gapsText last⟩ = .ok (.inl (p.after (gapsText last))) := by
      have hskip : nextToken ⟨p, gapsText last ++ []⟩ = nextToken ⟨p.after (gapsText last), []⟩ :=
        nextToken_gapsText h.sound_last p
      rw [List.append_nil] at hskip
      rw [hskip]
      rfl
    exact readFrom_of_end hend
  | cons x xs ih =>
    obtain ⟨hx, -⟩ := List.forall_mem_cons.1 h.valid
    obtain ⟨hgaps, -⟩ := List.forall_mem_cons.1 h.sound
    have htext : placedText (x :: xs) ++ gapsText last =
        x.text ++ (placedText xs ++ gapsText last) := by
      rw [placedText, List.flatMap_cons, List.append_assoc, ← placedText]
    have hfirst : nextToken ⟨p, x.text ++ (placedText xs ++ gapsText last)⟩ =
        .ok (.inr (⟨x.lexeme, p.after (gapsText x.gaps)⟩,
          ⟨p.after x.text, placedText xs ++ gapsText last⟩)) := by
      rw [Placed.text, List.append_assoc, nextToken_gapsText hgaps,
        nextToken_written hx h.ends, ← Position.after_append]
    rw [htext, readFrom_of_token hfirst, ih h.tail, Position.after_append p x.text]
    rfl

theorem lexemes_placedTokens (p : Position) (xs : List Placed) :
    (placedTokens p xs).map Token.lexeme = xs.map Placed.lexeme := by
  induction xs generalizing p with
  | nil => rfl
  | cons x xs ih => rw [placedTokens, List.map_cons, List.map_cons, ih]

/-- A token stands behind the text before it. -/
theorem placedTokens_getElem? (p : Position) (before after : List Placed) (x : Placed) :
    (placedTokens p (before ++ x :: after))[before.length]? =
      some ⟨x.lexeme, p.after (placedText before ++ gapsText x.gaps)⟩ := by
  induction before generalizing p with
  | nil => rfl
  | cons y before ih =>
    have hplace : p.after (placedText (y :: before) ++ gapsText x.gaps)
        = (p.after y.text).after (placedText before ++ gapsText x.gaps) := by
      rw [placedText, List.flatMap_cons, List.append_assoc, Position.after_append, ← placedText]
    rw [hplace]
    exact ih (p.after y.text)

end Strewn

/-! ### Places -/

/-- The line behind a text, of which the first is 1: a line break begins another. -/
def lineBehind (cs : List Char) : Nat := 1 + cs.count '\n'

/-- The column behind a text: the characters behind its last line break are before it. -/
def columnBehind (cs : List Char) : Nat := 1 + (cs.reverse.takeWhile (· ≠ '\n')).length

theorem lineBehind_le (cs : List Char) : lineBehind cs ≤ cs.length + 1 := by
  have hcount := cs.count_le_length (a := '\n')
  unfold lineBehind
  omega

theorem columnBehind_le (cs : List Char) : columnBehind cs ≤ cs.length + 1 := by
  have htake := (List.takeWhile_sublist (l := cs.reverse) (· ≠ '\n')).length_le
  rw [List.length_reverse] at htake
  unfold columnBehind
  omega

/-- The place behind a text, as the counters hold it. -/
def placeBehind (cs : List Char) : Position :=
  ⟨.ofNat (lineBehind cs), .ofNat (columnBehind cs)⟩

/-- Counting character by character leads behind the text, however often a counter starts again. -/
theorem after_start (cs : List Char) : Position.start.after cs = placeBehind cs := by
  induction cs using List.reverseRecOn with
  | nil => rfl
  | append_singleton cs c ih =>
    rw [Position.after_append, ih, Position.after_cons, Position.after_nil, Position.next]
    split
    · next hc =>
      have hline : lineBehind (cs ++ [c]) = lineBehind cs + 1 := by
        simp [lineBehind, hc, Nat.add_assoc]
      have hcolumn : columnBehind (cs ++ [c]) = 1 := by simp [columnBehind, hc]
      rw [placeBehind, placeBehind, hline, hcolumn, UInt32.ofNat_add]
      rfl
    · next hc =>
      have hline : lineBehind (cs ++ [c]) = lineBehind cs := by simp [lineBehind, hc]
      have hcolumn : columnBehind (cs ++ [c]) = columnBehind cs + 1 := by
        simp [columnBehind, hc, Nat.add_comm]
      rw [placeBehind, placeBehind, hline, hcolumn, UInt32.ofNat_add]
      rfl

/-- A place is the one behind a text: its counters hold the numbers of the line and the column
there, up to multiples of what 32 bits count, and these numbers themselves if the text is short
enough for 32 bits to count it. -/
structure Position.IsBehind (p : Position) (cs : List Char) : Prop where
  line_mod : p.line.toNat = lineBehind cs % UInt32.size
  column_mod : p.column.toNat = columnBehind cs % UInt32.size
  line_eq : cs.length + 1 < UInt32.size → p.line.toNat = lineBehind cs
  column_eq : cs.length + 1 < UInt32.size → p.column.toNat = columnBehind cs

theorem isBehind_placeBehind (cs : List Char) : (placeBehind cs).IsBehind cs where
  line_mod := UInt32.toNat_ofNat'
  column_mod := UInt32.toNat_ofNat'
  line_eq h := UInt32.toNat_ofNat_of_lt' ((lineBehind_le cs).trans_lt h)
  column_eq h := UInt32.toNat_ofNat_of_lt' ((columnBehind_le cs).trans_lt h)

/-- **A text is read as its lexemes, whatever stands between them, and each lexeme and the end of
the file is at the place that the text before it gives.** The counters of a place start again in a
text that 32 bits cannot count. -/
theorem tokenize_strewn {xs : List Placed} {last : List Gap} (h : Strewn xs last) :
    ∃ stream : TokenStream,
      tokenize (String.ofList (placedText xs ++ gapsText last)) = .ok stream
        ∧ stream.tokens.map Token.lexeme = xs.map Placed.lexeme
        ∧ (∀ before x after, xs = before ++ x :: after →
            ∃ p, stream.tokens[before.length]?.map Token.position = some p
              ∧ p.IsBehind (placedText before ++ gapsText x.gaps))
        ∧ stream.stop.IsBehind (placedText xs ++ gapsText last) := by
  have hread := readFrom_strewn h .start
  refine ⟨⟨placedTokens .start xs, placeBehind (placedText xs ++ gapsText last)⟩, ?_,
    lexemes_placedTokens _ _, ?_, isBehind_placeBehind _⟩
  · rw [tokenize, readTokens, String.toList_ofList, hread, ← after_start]
    rfl
  · rintro before x after rfl
    refine ⟨placeBehind (placedText before ++ gapsText x.gaps), ?_, isBehind_placeBehind _⟩
    rw [placedTokens_getElem?, ← after_start]
    rfl

/-- Lexemes behind a comment that begins with a slash and ends with a star, a comment that opens
another, and a line break; the text among them holds the marks of comments and a quote. -/
def commented : List Placed :=
  [⟨[.block ['/', 'x', '*']], .word "a1"⟩, ⟨[.line ['/', '*', '"']], .integer Int64.minValue⟩,
    ⟨[], .text "//\"/*\n"⟩, ⟨[.blank '\n', .blank ' '], .symbol .openBrace⟩]

theorem tokenize_commented :
    Strewn commented [.block ['*']] ∧ ∃ stream : TokenStream,
      tokenize (String.ofList (placedText commented ++ gapsText [.block ['*']])) = .ok stream
        ∧ stream.tokens.map Token.lexeme
          = [.word "a1", .integer Int64.minValue, .text "//\"/*\n", .symbol .openBrace]
        ∧ (∃ p, stream.tokens[3]?.map Token.position = some p
            ∧ p.line.toNat = 3 ∧ p.column.toNat = 2)
        ∧ stream.stop.line.toNat = 3 ∧ stream.stop.column.toNat = 8 := by
  have hs : Strewn commented [.block ['*']] :=
    { valid := by decide
      sound := by decide
      sound_last := by decide
      apart := by decide }
  obtain ⟨stream, hstream, hlexemes, hplace, hstop⟩ := tokenize_strewn hs
  obtain ⟨p, hp, hbehind⟩ := hplace (commented.take 3) _ [] rfl
  refine ⟨hs, stream, hstream, hlexemes, ⟨p, hp, ?_, ?_⟩, ?_, ?_⟩
  · exact (hbehind.line_eq (by decide)).trans (by decide)
  · exact (hbehind.column_eq (by decide)).trans (by decide)
  · exact (hstop.line_eq (by decide)).trans (by decide)
  · exact (hstop.column_eq (by decide)).trans (by decide)

end Backwire.Schema
