import Backwire.Package.FileTree
import Mathlib.Data.List.Basic

/-!
# File trees that change

What stands at a path after a tree was changed somewhere: where the change was made, what was put
there or nothing, and everywhere else what stood there before. The root is a directory whatever is
done to it, so changes are made below it.
-/

namespace Backwire.Package

/-- Leaving out one key keeps what stands under the others. -/
theorem lookup_filter_ne {α β : Type} [DecidableEq α] (entries : List (α × β)) {key other : α}
    (h : key ≠ other) : (entries.filter (·.1 ≠ other)).lookup key = entries.lookup key := by
  induction entries with
  | nil => rfl
  | cons x entries ih =>
    obtain ⟨k, value⟩ := x
    by_cases hk : k = other
    · have hkey : (key == k) = false := beq_eq_false_iff_ne.2 (hk ▸ h)
      rw [List.filter_cons_of_neg (by simpa using hk), ih, List.lookup_cons, hkey]
    · rw [List.filter_cons_of_pos (by simpa using hk), List.lookup_cons, List.lookup_cons, ih]

theorem lookup_filter_self {α β : Type} [DecidableEq α] (entries : List (α × β)) (key : α) :
    (entries.filter (·.1 ≠ key)).lookup key = none := by
  rw [List.lookup_eq_none_iff]
  intro x hx
  exact bne_iff_ne.2 (Ne.symm (of_decide_eq_true (List.mem_filter.1 hx).2))

theorem Path.child_ne_root (p : Path) (name : String) : p.child name ≠ .root := by
  simp [child, root]

namespace FileTree

variable {t : FileTree} {p q : Path} {n : Node} {content : ByteArray}

@[simp] theorem node?_root (t : FileTree) : t.node? .root = some .directory := if_pos rfl

theorem isFile_iff : t.isFile p = true ↔ ∃ content, t.node? p = some (.file content) := by
  unfold isFile
  split <;> simp_all

theorem isDirectory_iff : t.isDirectory p = true ↔ t.node? p = some .directory := beq_iff_eq

/-- Where neither a file nor a directory stands, nothing does. -/
theorem node?_eq_none (hfile : t.isFile p ≠ true) (hdirectory : t.node? p ≠ some .directory) :
    t.node? p = none := by
  cases hnode : t.node? p with
  | none => rfl
  | some node =>
    cases node with
    | directory => exact absurd hnode hdirectory
    | file content => exact absurd (isFile_iff.2 ⟨content, hnode⟩) hfile

theorem ne_root_of_isFile (h : t.isFile p) : p ≠ .root := by
  rintro rfl
  simp [isFile] at h

theorem node?_put (hp : p ≠ .root) :
    (t.put p n).node? q = if q = p then some n else t.node? q := by
  by_cases hq : q = .root
  · subst hq
    rw [node?_root, node?_root, if_neg hp.symm]
  · rw [node?, if_neg hq, put, List.lookup_cons, node?, if_neg hq]
    by_cases hqp : q = p
    · simp [hqp]
    · rw [beq_eq_false_iff_ne.2 hqp, if_neg hqp]
      exact lookup_filter_ne _ hqp

theorem node?_removeFile :
    (t.removeFile p).node? q = if q = p ∧ t.isFile p then none else t.node? q := by
  unfold removeFile
  by_cases hfile : t.isFile p = true
  · have hp := ne_root_of_isFile hfile
    by_cases hq : q = .root
    · subst hq
      rw [node?_root, node?_root, if_neg fun h => hp h.1.symm]
    · rw [if_pos hfile, node?, if_neg hq]
      by_cases hqp : q = p
      · rw [if_pos ⟨hqp, hfile⟩, hqp]
        exact lookup_filter_self _ _
      · rw [if_neg fun h => hqp h.1, node?, if_neg hq]
        exact lookup_filter_ne _ hqp
  · rw [if_neg hfile, if_neg fun h => hfile h.2]

/-- **Files that are removed are gone**, and all else stays. -/
theorem node?_foldl_removeFile {ps : List Path} :
    (ps.foldl removeFile t).node? q = if q ∈ ps ∧ t.isFile q then none else t.node? q := by
  induction ps generalizing t with
  | nil => simp
  | cons p ps ih =>
    rw [List.foldl_cons, ih, isFile, isFile, node?_removeFile]
    grind [isFile]

theorem node?_moveFile (hq : q ≠ .root) (hp : t.node? p = some (.file content)) {r : Path} :
    (t.moveFile p q).node? r =
      if r = q then some (.file content) else if r = p then none else t.node? r := by
  have hfile : t.isFile p = true := isFile_iff.2 ⟨content, hp⟩
  rw [moveFile, hp, node?_put hq, node?_removeFile]
  simp only [hfile, and_true]

end FileTree

end Backwire.Package
