import Backwire.Package.Compile
import Backwire.Proofs.Package.FileTrees

/-!
# How sessions grow

While packages are compiled, a session changes in two ways only: a package is started, under an ID
that the session does not have, or a package that was started is finished. `Session.Grows` is what
both have in common as seen from an earlier session: all of its packages are still there with their
numbers and IDs. So an earlier session comes back when a later one is cut to its length
(`Session.Grows.truncate_eq`).
-/

namespace Backwire.Package

namespace Session

variable {s s₁ s' : Session} {d : Draft} {p : Compiled} {i j : Nat} {id : String}

/-! ### Looking up -/

theorem package?_eq_some_iff : s.package? i = some p ↔ s.entries[i]? = some (.finished p) := by
  unfold package?
  cases s.entries[i]? with
  | none => simp
  | some entry => cases entry <;> simp [Entry.package?]

theorem lt_length_of_package? (h : s.package? i = some p) : i < s.entries.length :=
  (List.getElem?_eq_some_iff.1 (package?_eq_some_iff.1 h)).1

/-- A package that is started stands in the index, and all others still do. -/
theorem indexOf?_start (s : Session) (d : Draft) (id : String) :
    (s.start d).indexOf? id = if id = d.id then some s.entries.length else s.indexOf? id := by
  unfold start indexOf?
  rw [List.lookup_cons]
  split
  · next h => rw [if_pos (eq_of_beq h)]
  · next h =>
    rw [beq_eq_false_iff_ne] at h
    rw [if_neg h, lookup_filter_ne _ h]

theorem entries_start (s : Session) (d : Draft) :
    (s.start d).entries = s.entries ++ [.started d] := rfl

@[simp] theorem length_start (s : Session) (d : Draft) :
    (s.start d).entries.length = s.entries.length + 1 := by
  rw [entries_start, List.length_append]
  rfl

@[simp] theorem length_finish (s : Session) (i : Nat) (p : Compiled) :
    (s.finish i p).entries.length = s.entries.length := List.length_set

theorem indexOf?_finish (s : Session) (i : Nat) (p : Compiled) (id : String) :
    (s.finish i p).indexOf? id = s.indexOf? id := rfl

/-- Starting a package finishes none. -/
theorem package?_start (s : Session) (d : Draft) (i : Nat) :
    (s.start d).package? i = s.package? i := by
  rcases Nat.lt_trichotomy i s.entries.length with h | rfl | h
  · rw [package?, entries_start, List.getElem?_append_left h, package?]
  · rw [package?, entries_start, List.getElem?_concat_length, package?,
      List.getElem?_eq_none (Nat.le_refl _)]
    rfl
  · rw [package?, package?, List.getElem?_eq_none (Nat.le_of_lt h), List.getElem?_eq_none]
    rw [length_start]
    exact h

/-- Finishing a package changes no other. -/
theorem package?_finish (h : i < s.entries.length) (p : Compiled) (j : Nat) :
    (s.finish i p).package? j = if j = i then some p else s.package? j := by
  unfold package? finish
  split
  · next hj =>
    subst hj
    rw [List.getElem?_set_self h]
    rfl
  · next hj => rw [List.getElem?_set_ne (Ne.symm hj)]

/-! ### Growing -/

/-- **All packages of `s` are in `s'`** with their numbers, and what the index of `s'` has beyond
that of `s` leads from new IDs to new packages. -/
structure Grows (s s' : Session) : Prop where
  entries : s.entries <+: s'.entries
  index : ∃ more, s'.index = more ++ s.index ∧
    ∀ x ∈ more, s.entries.length ≤ x.2 ∧ s.indexOf? x.1 = none

namespace Grows

theorem refl (s : Session) : s.Grows s := ⟨List.prefix_refl _, [], rfl, nofun⟩

theorem length_le (h : s.Grows s') : s.entries.length ≤ s'.entries.length := h.entries.length_le

theorem getElem? (h : s.Grows s') (hi : i < s.entries.length) : s'.entries[i]? = s.entries[i]? := by
  obtain ⟨more, hmore⟩ := h.entries
  rw [← hmore, List.getElem?_append_left hi]

theorem package? (h : s.Grows s') (hp : s.package? i = some p) : s'.package? i = some p := by
  have hi := lt_length_of_package? hp
  rw [package?_eq_some_iff] at hp ⊢
  rw [h.getElem? hi, hp]

theorem lookup_append_of_none {more index : List (String × Nat)}
    (h : ∀ x ∈ more, x.1 ≠ id) : (more ++ index).lookup id = index.lookup id := by
  induction more with
  | nil => rfl
  | cons x more ih =>
    obtain ⟨hx, hmore⟩ := List.forall_mem_cons.1 h
    rw [List.cons_append, List.lookup_cons, beq_eq_false_iff_ne.2 (Ne.symm hx)]
    exact ih hmore

theorem indexOf? (h : s.Grows s') (hi : s.indexOf? id = some i) : s'.indexOf? id = some i := by
  obtain ⟨more, hindex, hmore⟩ := h.index
  rw [Session.indexOf?, hindex, lookup_append_of_none]
  · exact hi
  · rintro x hx rfl
    rw [(hmore x hx).2] at hi
    cases hi

theorem trans (h : s.Grows s₁) (h' : s₁.Grows s') : s.Grows s' := by
  obtain ⟨more, hindex, hmore⟩ := h.index
  obtain ⟨more', hindex', hmore'⟩ := h'.index
  refine ⟨h.entries.trans h'.entries, more' ++ more, ?_, fun x hx => ?_⟩
  · rw [hindex', hindex, List.append_assoc]
  · rcases List.mem_append.1 hx with hx | hx
    · obtain ⟨hle, hnone⟩ := hmore' x hx
      refine ⟨Nat.le_trans h.length_le hle, ?_⟩
      cases hi : s.indexOf? x.1 with
      | none => rfl
      | some i =>
        rw [h.indexOf? hi] at hnone
        cases hnone
    · exact hmore x hx

theorem start (h : s.indexOf? d.id = none) : s.Grows (s.start d) := by
  have hkeep : s.index.filter (·.1 ≠ d.id) = s.index := by
    refine List.filter_eq_self.2 fun x hx => ?_
    have hne : d.id ≠ x.1 := bne_iff_ne.1 (List.lookup_eq_none_iff.1 h x hx)
    exact decide_eq_true (Ne.symm hne)
  refine ⟨List.prefix_append _ _, [(d.id, s.entries.length)], ?_, ?_⟩
  · rw [Session.start, hkeep]
    rfl
  · intro x hx
    obtain rfl := List.mem_singleton.1 hx
    exact ⟨Nat.le_refl _, h⟩

/-- A package is finished that was started since. -/
theorem finish (h : s.indexOf? d.id = none) (hg : (s.start d).Grows s') (p : Compiled) :
    s.Grows (s'.finish s.entries.length p) := by
  refine ⟨?_, ((start h).trans hg).index⟩
  obtain ⟨more, hmore⟩ := hg.entries
  rw [entries_start, List.append_assoc] at hmore
  rw [Session.finish, ← hmore, List.set_append_right _ _ (Nat.le_refl _)]
  exact List.prefix_append _ _

/-- **What was added can be taken out again.** -/
theorem truncate_eq (h : s.Grows s') (hs : ∀ x ∈ s.index, x.2 < s.entries.length) :
    s'.truncate s.entries.length = s := by
  obtain ⟨rest, hrest⟩ := h.entries
  obtain ⟨more, hindex, hmore⟩ := h.index
  have hnew : more.filter (·.2 < s.entries.length) = [] :=
    List.filter_eq_nil_iff.2 fun x hx => by simpa using (hmore x hx).1
  have hold : s.index.filter (·.2 < s.entries.length) = s.index :=
    List.filter_eq_self.2 fun x hx => by simpa using hs x hx
  rw [truncate, ← hrest, List.take_left' rfl, hindex, List.filter_append, hnew, hold]
  rfl

end Grows

end Session

end Backwire.Package
