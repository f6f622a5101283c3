/-!
# Segments of a text

A separator cuts a text into segments, of which there is always at least one. `join_split` says
that putting the separator back between the segments yields the text.
-/

namespace Backwire.Text

/-- The segments of a text between separators. -/
def split (separator : Char) : List Char → List (List Char)
  | [] => [[]]
  | c :: cs =>
    if c = separator then [] :: split separator cs
    else
      match split separator cs with
      | [] => [[c]]
      | w :: ws => (c :: w) :: ws

/-- The segments of a text between separators. -/
def segments (separator : Char) (s : String) : List String :=
  (split separator s.toList).map String.ofList

/-- Segments with a separator between them. -/
def join (separator : Char) : List (List Char) → List Char
  | [] => []
  | [w] => w
  | w :: ws => w ++ separator :: join separator ws

/-- Texts with a separator between them. -/
def joined (separator : Char) (ws : List String) : String :=
  String.ofList (join separator (ws.map String.toList))

theorem split_ne_nil (separator : Char) (cs : List Char) : split separator cs ≠ [] := by
  cases cs with
  | nil => simp [split]
  | cons c cs =>
    unfold split
    split
    · simp
    · split <;> simp

theorem join_cons_cons (separator : Char) (w v : List Char) (ws : List (List Char)) :
    join separator (w :: v :: ws) = w ++ separator :: join separator (v :: ws) := rfl

/-- Joining the segments of a text yields the text. -/
theorem join_split (separator : Char) (cs : List Char) :
    join separator (split separator cs) = cs := by
  induction cs with
  | nil => rfl
  | cons c cs ih =>
    unfold split
    split
    · next h =>
      subst h
      cases hs : split c cs with
      | nil => exact absurd hs (split_ne_nil c cs)
      | cons w ws => rw [join_cons_cons, ← hs, ih]; rfl
    · cases hs : split separator cs with
      | nil => exact absurd hs (split_ne_nil separator cs)
      | cons w ws =>
        rw [hs] at ih
        cases ws with
        | nil => simp only [join] at ih ⊢; rw [ih]
        | cons v vs => simp only [join, List.cons_append] at ih ⊢; rw [ih]

/-- A segment does not hold the separator. -/
theorem not_mem_of_mem_split {separator : Char} {cs w : List Char}
    (h : w ∈ split separator cs) : separator ∉ w := by
  induction cs generalizing w with
  | nil =>
    simp only [split, List.mem_singleton] at h
    subst h
    simp
  | cons c cs ih =>
    unfold split at h
    split at h
    · rcases List.mem_cons.1 h with rfl | h
      · simp
      · exact ih h
    · next hc =>
      cases hs : split separator cs with
      | nil => exact absurd hs (split_ne_nil separator cs)
      | cons v vs =>
        rw [hs] at h
        rcases List.mem_cons.1 h with rfl | h
        · have := ih (hs ▸ List.mem_cons_self)
          simp only [List.mem_cons, not_or]
          exact ⟨fun e => hc e.symm, this⟩
        · exact ih (hs ▸ List.mem_cons_of_mem _ h)

end Backwire.Text
