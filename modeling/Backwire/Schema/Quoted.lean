import Backwire.Schema.SyntaxError

/-!
# Quoted texts of a schema

A quoted text stands between double quotes on one line. The quote, the backslash, the line break
and the tab are written with a backslash before them; every other character stands for itself.
`scan_escaped` says that scanning undoes quoting.
-/

namespace Backwire.Schema.Quoted

/-- A character as it is written between quotes. -/
def escape (c : Char) : List Char :=
  if c = '"' then ['\\', '"']
  else if c = '\\' then ['\\', '\\']
  else if c = '\n' then ['\\', 'n']
  else if c = '\t' then ['\\', 't']
  else [c]

/-- The character that a backslash and a character stand for. -/
def unescape? (c : Char) : Option Char :=
  if c = '"' then some '"'
  else if c = '\\' then some '\\'
  else if c = 'n' then some '\n'
  else if c = 't' then some '\t'
  else none

/-- A text between its quotes. -/
def encode (cs : List Char) : List Char := '"' :: (cs.flatMap escape ++ ['"'])

/-- A text as a schema writes it. -/
def quote (s : String) : String := String.ofList (encode s.toList)

/-- Reads on at `p`, behind the quote that stands at `opening`, up to the closing quote: the text
and the place behind its closing quote. -/
def scan (opening : Position) (p : Position) : List Char → Except SyntaxError (List Char × Cursor)
  | [] => .error ⟨opening, .unterminatedString⟩
  | c :: cs =>
    if c = '\n' then .error ⟨opening, .unterminatedString⟩
    else if c = '"' then .ok ([], ⟨p.next c, cs⟩)
    else if c = '\\' then
      match cs with
      | [] => .error ⟨opening, .unterminatedString⟩
      | d :: ds =>
        match unescape? d with
        | none => .error ⟨p.next c, .unknownEscape d⟩
        | some x =>
          match scan opening ((p.next c).next d) ds with
          | .error e => .error e
          | .ok (xs, k) => .ok (x :: xs, k)
    else
      match scan opening (p.next c) cs with
      | .error e => .error e
      | .ok (xs, k) => .ok (c :: xs, k)

/-- What follows a closing quote is a proper part of what followed the opening quote. -/
theorem length_lt_of_scan {opening p : Position} {cs text : List Char} {k : Cursor}
    (h : scan opening p cs = .ok (text, k)) : k.rest.length < cs.length := by
  fun_induction scan opening p cs generalizing text k with
  | case1 => cases h
  | case2 => cases h
  | case3 => cases h; simp
  | case4 => cases h
  | case5 => cases h
  | case6 => cases h
  | case7 p _ _ d ds _ _ xs tail heq ih =>
    cases h
    have := ih heq
    simp only [List.length_cons]
    omega
  | case8 => cases h
  | case9 p c cs _ _ _ xs tail heq ih =>
    cases h
    have := ih heq
    simp only [List.length_cons]
    omega

/-- Scanning undoes quoting, whatever follows the closing quote. -/
theorem scan_escaped (opening : Position) (p : Position) (cs rest : List Char) :
    scan opening p (cs.flatMap escape ++ '"' :: rest)
      = .ok (cs, ⟨p.after (cs.flatMap escape ++ ['"']), rest⟩) := by
  induction cs generalizing p with
  | nil => rw [List.flatMap_nil, List.nil_append, scan.eq_def]; simp
  | cons c cs ih =>
    rw [List.flatMap_cons, List.append_assoc]
    by_cases h₁ : c = '"'
    · subst h₁; simp [escape, scan, unescape?, ih]
    · by_cases h₂ : c = '\\'
      · subst h₂; simp [escape, scan, unescape?, ih]
      · by_cases h₃ : c = '\n'
        · subst h₃; simp [escape, scan, unescape?, ih]
        · by_cases h₄ : c = '\t'
          · subst h₄; simp [escape, scan, unescape?, ih]
          · rw [show escape c = [c] by simp [escape, h₁, h₂, h₃, h₄], List.singleton_append,
              scan.eq_def]
            simp [h₁, h₂, h₃, ih]

end Backwire.Schema.Quoted
