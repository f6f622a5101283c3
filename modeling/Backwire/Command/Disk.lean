import Backwire.Package.FileTree

/-!
# Disks

A file tree says what stands where. It does not say whether a disk does what it is asked to do: a
disk may be full, or fail, at any moment. A `Disk` decides that, and it chooses the names of new
files that are moved to their places later.
-/

namespace Backwire.Command

open Package

/-- What a disk is asked to do. -/
inductive Request where
  /-- Make a new file. -/
  | make (file : Path)
  /-- Fill a file. -/
  | fill (file : Path) (content : ByteArray)
  /-- Move a file to its place. -/
  | move (file place : Path)

/-- How a disk behaves in what a file tree leaves open. -/
structure Disk where
  /-- The name of a new file in a directory. -/
  newName : FileTree → Path → String
  /-- Nothing has the name of a new file. -/
  newName_free (t : FileTree) (directory : Path) :
    t.node? (directory.child (newName t directory)) = none
  /-- Why a request fails, if it does. -/
  fault? : FileTree → Request → Option FileFault

/-! ### A disk that does not fail -/

/-- The length of the longest name. -/
def longest : List String → Nat
  | [] => 0
  | name :: names => max name.length (longest names)

/-- A name that is longer than every name in a tree. -/
def longName (t : FileTree) : String :=
  ".tmp" ++ String.ofList (List.replicate (longest (t.entries.filterMap (·.1.fileName?))) '_')

theorem length_le_longest {name : String} {names : List String} (h : name ∈ names) :
    name.length ≤ longest names := by
  induction names with
  | nil => cases h
  | cons a names ih =>
    rw [longest]
    cases h with
    | head => exact Nat.le_max_left _ _
    | tail _ h => exact Nat.le_trans (ih h) (Nat.le_max_right _ _)

theorem node?_child_longName (t : FileTree) (directory : Path) :
    t.node? (directory.child (longName t)) = none := by
  have hroot : directory.child (longName t) ≠ .root := by simp [Path.child, Path.root]
  rw [FileTree.node?, if_neg hroot, List.lookup_eq_none_iff]
  rintro ⟨p, node⟩ hmem
  rw [bne_iff_ne]
  rintro rfl
  have hname : longName t ∈ t.entries.filterMap (·.1.fileName?) :=
    List.mem_filterMap.2 ⟨_, hmem, by simp [Path.fileName?, Path.child, Step.name?]⟩
  have hle := length_le_longest hname
  have hlength : (longName t).length = 4 + longest (t.entries.filterMap (·.1.fileName?)) := by
    have hprefix : ".tmp".length = 4 := rfl
    simp [longName, hprefix]
  omega

/-- A disk that does whatever the tree allows. -/
def Disk.reliable : Disk where
  newName t _ := longName t
  newName_free := node?_child_longName
  fault? _ _ := none

end Backwire.Command
