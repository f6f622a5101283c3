import Backwire.Schema.Quoted
import Backwire.Text.Blank

/-!
# Reading lexemes

Between lexemes stand blanks, comments from `//` to the end of the line, and comments between
`/*` and `*/`, which do not nest. A lexeme is as long as it can be. `nextToken` reads one token
and yields a shorter rest (`length_lt_of_nextToken`), so reading a file ends.
-/

namespace Backwire.Schema

/-! ### What stands between lexemes -/

/-- Where a reader is that skips what stands between lexemes. -/
inductive Skipping where
  /-- Outside of any comment. -/
  | between
  /-- In a comment that ends with the line. -/
  | line
  /-- In a comment that begins at a place and ends with `*/`; `star` says that its last character
  was a star. -/
  | block (opening : Position) (star : Bool)
  deriving DecidableEq, Repr

/-- Skips blanks and comments. -/
def skip : Skipping → Position → List Char → Except SyntaxError Cursor
  | .between, p, [] => .ok ⟨p, []⟩
  | .line, p, [] => .ok ⟨p, []⟩
  | .block opening _, _, [] => .error ⟨opening, .unterminatedComment⟩
  | .between, p, c :: cs =>
    if Text.isBlank c then skip .between (p.next c) cs
    else if c = '/' then
      match cs with
      | '/' :: ds => skip .line ((p.next c).next '/') ds
      | '*' :: ds => skip (.block p false) ((p.next c).next '*') ds
      | _ => .error ⟨p, .unexpectedCharacter '/'⟩
    else .ok ⟨p, c :: cs⟩
  | .line, p, c :: cs => skip (if c = '\n' then .between else .line) (p.next c) cs
  | .block opening star, p, c :: cs =>
    if star ∧ c = '/' then skip .between (p.next c) cs
    else skip (.block opening (c == '*')) (p.next c) cs

/-- Skipping leaves a part of the text. -/
theorem length_le_of_skip {s : Skipping} {p : Position} {cs : List Char} {k : Cursor}
    (h : skip s p cs = .ok k) : k.rest.length ≤ cs.length := by
  fun_induction skip s p cs with
  | case1 => cases h; simp
  | case2 => cases h; simp
  | case3 => cases h
  | case4 _ _ _ _ ih => exact Nat.le_succ_of_le (ih h)
  | case5 _ _ _ ih =>
    have := ih h
    simp only [List.length_cons]
    omega
  | case6 _ _ _ ih =>
    have := ih h
    simp only [List.length_cons]
    omega
  | case7 => cases h
  | case8 => cases h; simp
  | case9 _ _ _ ih => exact Nat.le_succ_of_le (ih h)
  | case10 _ _ _ _ _ _ ih => exact Nat.le_succ_of_le (ih h)
  | case11 _ _ _ _ _ _ ih => exact Nat.le_succ_of_le (ih h)

/-! ### Numbers -/

/-- The value of decimal digits. -/
def digitsValue (ds : List Char) : Nat := ds.foldl (fun n d => 10 * n + (d.toNat - 48)) 0

/-- The 64-bit integer of a sign and decimal digits, if it is one. -/
def integerOf? (negative : Bool) (ds : List Char) : Option Int64 :=
  let value : Int := if negative then -digitsValue ds else digitsValue ds
  if Int64.minValue.toInt ≤ value ∧ value ≤ Int64.maxValue.toInt then some (Int64.ofInt value)
  else none

/-- Reads an integer that starts at `p` with the characters `sign`, and whose digits are the
first of `cs`. -/
def scanInteger (p : Position) (sign cs : List Char) : Except SyntaxError (Lexeme × Cursor) :=
  let digits := cs.takeWhile Char.isDigit
  let rest := cs.dropWhile Char.isDigit
  if rest.head?.any isWordStart then .error ⟨p, .digitFirst⟩
  else match integerOf? (sign ≠ []) digits with
    | some value => .ok (.integer value, ⟨p.after (sign ++ digits), rest⟩)
    | none => .error ⟨p, .integerTooLarge (String.ofList (sign ++ digits))⟩

/-! ### Lexemes -/

/-- Reads the lexeme that starts with the character `c` at `p`. -/
def scanLexeme (p : Position) (c : Char) (cs : List Char) :
    Except SyntaxError (Lexeme × Cursor) :=
  match Symbol.ofChar? c with
  | some mark => .ok (.symbol mark, ⟨p.next c, cs⟩)
  | none =>
    if c = '"' then
      match Quoted.scan p (p.next c) cs with
      | .error e => .error e
      | .ok (text, k) => .ok (.text (String.ofList text), k)
    else if c = '-' then
      if cs.head?.any Char.isDigit then scanInteger p [c] cs else .error ⟨p, .loneMinus⟩
    else if c.isDigit then scanInteger p [] (c :: cs)
    else if isWordStart c then
      let name := c :: cs.takeWhile isWordRest
      .ok (.word (String.ofList name), ⟨p.after name, cs.dropWhile isWordRest⟩)
    else .error ⟨p, .unexpectedCharacter c⟩

theorem length_dropWhile_le (f : Char → Bool) (cs : List Char) :
    (cs.dropWhile f).length ≤ cs.length := (List.dropWhile_sublist f).length_le

theorem rest_of_scanInteger {p : Position} {sign cs : List Char} {l : Lexeme} {k : Cursor}
    (h : scanInteger p sign cs = .ok (l, k)) : k.rest = cs.dropWhile Char.isDigit := by
  unfold scanInteger at h
  simp only at h
  split at h
  · cases h
  · split at h
    · cases h; rfl
    · cases h

theorem length_le_of_scanLexeme {p : Position} {c : Char} {cs : List Char} {l : Lexeme}
    {k : Cursor} (h : scanLexeme p c cs = .ok (l, k)) : k.rest.length ≤ cs.length := by
  unfold scanLexeme at h
  split at h
  · cases h; simp
  · split at h
    · split at h
      · cases h
      · next heq => cases h; exact Nat.le_of_lt (Quoted.length_lt_of_scan heq)
    · split at h
      · split at h
        · rw [rest_of_scanInteger h]; exact length_dropWhile_le _ _
        · cases h
      · split at h
        · next hd =>
          rw [rest_of_scanInteger h, List.dropWhile_cons_of_pos hd]
          exact length_dropWhile_le _ _
        · split at h
          · cases h; exact length_dropWhile_le _ _
          · cases h

/-! ### Tokens -/

/-- Reads the next token, or finds the place where the file ends. -/
def nextToken (k : Cursor) : Except SyntaxError (Position ⊕ Token × Cursor) :=
  match skip .between k.position k.rest with
  | .error e => .error e
  | .ok ⟨p, []⟩ => .ok (.inl p)
  | .ok ⟨p, c :: cs⟩ =>
    match scanLexeme p c cs with
    | .error e => .error e
    | .ok (l, k') => .ok (.inr (⟨l, p⟩, k'))

theorem length_lt_of_nextToken {k k' : Cursor} {t : Token}
    (h : nextToken k = .ok (.inr (t, k'))) : k'.rest.length < k.rest.length := by
  unfold nextToken at h
  split at h
  · cases h
  · cases h
  · next p c cs heq =>
    have hskip := length_le_of_skip heq
    split at h
    · cases h
    · next l k'' hl =>
      cases h
      have := length_le_of_scanLexeme hl
      simp only [List.length_cons] at hskip ⊢
      omega

/-- The tokens of a text up to its end or its first error. -/
structure Reading where
  tokens : List Token
  ending : Except SyntaxError Position

/-- Reads tokens from a cursor on. -/
def readFrom (k : Cursor) : Reading :=
  match _h : nextToken k with
  | .error e => ⟨[], .error e⟩
  | .ok (.inl stop) => ⟨[], .ok stop⟩
  | .ok (.inr (t, k')) =>
    let r := readFrom k'
    ⟨t :: r.tokens, r.ending⟩
  termination_by k.rest.length
  decreasing_by exact length_lt_of_nextToken _h

/-- Reads the tokens of a text. -/
def readTokens (text : String) : Reading := readFrom ⟨.start, text.toList⟩

/-- The tokens of a text, if it has no lexical error. -/
def tokenize (text : String) : Except SyntaxError TokenStream :=
  let r := readTokens text
  r.ending.map fun stop => ⟨r.tokens, stop⟩

end Backwire.Schema
