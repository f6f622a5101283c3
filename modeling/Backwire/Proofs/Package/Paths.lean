import Backwire.Package.Path
import Mathlib.Data.List.Basic

/-!
# Paths and their texts

A path that is made of the steps of a text is read back from what it is written as, if it is
relative and leads anywhere (`Path.ofText_slashed`).
-/

namespace Backwire.Text

variable {separator : Char} {w : List Char}

theorem split_of_not_mem (h : separator ∉ w) : split separator w = [w] := by
  induction w with
  | nil => rfl
  | cons c w ih =>
    rw [List.mem_cons, not_or] at h
    rw [split, if_neg (Ne.symm h.1), ih h.2]

theorem split_append_cons (h : separator ∉ w) (cs : List Char) :
    split separator (w ++ separator :: cs) = w :: split separator cs := by
  induction w with
  | nil => rw [List.nil_append, split, if_pos rfl]
  | cons c w ih =>
    rw [List.mem_cons, not_or] at h
    rw [List.cons_append, split, if_neg (Ne.symm h.1), ih h.2]

/-- Segments without the separator are cut apart again. -/
theorem split_join {ws : List (List Char)} (hne : ws ≠ []) (h : ∀ w ∈ ws, separator ∉ w) :
    split separator (join separator ws) = ws := by
  induction ws with
  | nil => exact absurd rfl hne
  | cons w ws ih =>
    obtain ⟨hw, hws⟩ := List.forall_mem_cons.1 h
    cases ws with
    | nil => exact split_of_not_mem hw
    | cons v ws => rw [join_cons_cons, split_append_cons hw, ih (List.cons_ne_nil _ _) hws]

theorem segments_joined {ws : List String} (hne : ws ≠ []) (h : ∀ w ∈ ws, separator ∉ w.toList) :
    segments separator (joined separator ws) = ws := by
  have hlists : ∀ w ∈ ws.map String.toList, separator ∉ w := List.forall_mem_map.2 h
  rw [segments, joined, String.toList_ofList, split_join (by simpa using hne) hlists, List.map_map]
  exact (List.map_congr_left fun w _ => String.ofList_toList).trans (List.map_id ws)

end Backwire.Text

namespace Backwire.Package

/-! ### Texts -/

/-- A step that is read back from its text. -/
structure Step.Proper (s : Step) : Prop where
  ofText : Step.ofText s.text = s
  noSlash : '/' ∉ s.text.toList

theorem Step.proper_ofText {t : String} (h : '/' ∉ t.toList) : (Step.ofText t).Proper := by
  unfold Step.ofText
  split
  · exact ⟨rfl, by decide⟩
  · next hhere =>
    split
    · exact ⟨rfl, by decide⟩
    · next hup => exact ⟨by rw [Step.text, Step.ofText, if_neg hhere, if_neg hup], h⟩

theorem Step.Proper.text_ne {s : Step} (h : s.Proper) : s.text ≠ "" := by
  intro hempty
  have hs := h.ofText
  rw [hempty] at hs
  rw [← hs] at hempty
  exact absurd hempty (by decide)

/-- A path whose steps are read back from their texts. -/
def Path.Proper (p : Path) : Prop := ∀ s ∈ p.steps, s.Proper

theorem Path.proper_ofText (text : String) : (Path.ofText text).Proper := by
  intro s hs
  obtain ⟨t, ht, rfl⟩ := List.mem_map.1 hs
  obtain ⟨w, hw, rfl⟩ := List.mem_map.1 ht
  refine Step.proper_ofText ?_
  rw [String.toList_ofList]
  exact Text.not_mem_of_mem_split hw

theorem Path.Proper.join {p q : Path} (hp : p.Proper) (hq : q.Proper) : (p.join q).Proper := by
  unfold Path.join
  split
  · exact hq
  · exact List.forall_mem_append.2 ⟨hp, hq⟩

/-- A path that is taken from the root or from a place below it is one from the root. -/
theorem Path.isAbsolute_join {p : Path} (h : p.isAbsolute) (q : Path) :
    (p.join q).isAbsolute := by
  unfold Path.join
  split
  · assumption
  · exact h

/-- The way from a directory to a path is what the path has behind the steps of the directory. -/
theorem Path.within?_eq_some_iff {p directory way : Path} :
    p.within? directory = some way ↔ way.isAbsolute = false ∧
      p.isAbsolute = directory.isAbsolute ∧ p.steps = directory.steps ++ way.steps := by
  unfold Path.within?
  constructor
  · intro h
    split at h
    · next hbelow =>
      obtain ⟨habsolute, rest, hrest⟩ := hbelow
      cases h
      refine ⟨rfl, habsolute, ?_⟩
      simp [← hrest]
    · cases h
  · rintro ⟨hrelative, habsolute, hsteps⟩
    rw [if_pos ⟨habsolute, way.steps, hsteps.symm⟩, hsteps, List.drop_left' rfl, ← hrelative]

/-- **A relative path is read back from what it is written as**, if it has steps. -/
theorem Path.ofText_slashed {p : Path} (h : p.Proper) (hrelative : p.isAbsolute = false)
    (hne : p.steps ≠ []) : Path.ofText p.slashed = p := by
  obtain ⟨isAbsolute, steps⟩ := p
  cases hrelative
  have htexts : ∀ t ∈ steps.map Step.text, '/' ∉ t.toList :=
    List.forall_mem_map.2 fun s hs => (h s hs).noSlash
  have hsteps : (steps.map Step.text).map Step.ofText = steps := by
    rw [List.map_map]
    exact (List.map_congr_left fun s hs => (h s hs).ofText).trans (List.map_id steps)
  have hhead : (Text.joined '/' (steps.map Step.text)).toList.head? ≠ some '/' := by
    obtain ⟨s, rest, rfl⟩ := List.exists_cons_of_ne_nil hne
    obtain ⟨hs, -⟩ := List.forall_mem_cons.1 h
    have hne : s.text.toList ≠ [] := fun h => hs.text_ne (String.toList_eq_nil_iff.1 h)
    obtain ⟨c, cs, hcs⟩ := List.exists_cons_of_ne_nil hne
    have hc : '/' ≠ c := fun h => hs.noSlash (by rw [hcs, h]; exact List.mem_cons_self)
    rw [Text.joined, String.toList_ofList, List.map_cons, List.map_cons, hcs]
    cases rest <;> simpa [Text.join] using hc.symm
  rw [Path.ofText, Path.slashed, Text.segments_joined (by simpa using hne) htexts, hsteps]
  simp [hhead]

end Backwire.Package
