import Backwire.Text.Segments

/-!
# Paths

A path is a sequence of steps from the root or from a place that is left open. Cleaning a path
takes out the steps that lead nowhere, by the text of the path alone: `clean` keeps names and
takes a name and the step back out of it together.
-/

namespace Backwire.Package

/-- A step of a path. -/
inductive Step where
  /-- Stay in a directory: `.`, or nothing between two slashes. -/
  | here
  /-- Leave the directory: `..` -/
  | up
  /-- Enter a directory or a file. -/
  | name (text : String)
  deriving DecidableEq, Repr

namespace Step

/-- The step that a segment of a path stands for. -/
def ofText (s : String) : Step :=
  if s = "" ∨ s = "." then here else if s = ".." then up else name s

/-- A step as it is written. -/
def text : Step → String
  | here => "."
  | up => ".."
  | name text => text

/-- The name that a step enters. -/
def name? : Step → Option String
  | name text => some text
  | _ => none

end Step

/-- A path from the root, or a relative one. -/
structure Path where
  isAbsolute : Bool
  steps : List Step
  deriving DecidableEq, Repr

namespace Path

/-- The path of the root. -/
def root : Path := ⟨true, []⟩

/-- The path that a text stands for. -/
def ofText (s : String) : Path :=
  ⟨s.toList.head? = some '/', (Text.segments '/' s).map Step.ofText⟩

/-- The steps of a path with slashes between them. -/
def slashed (p : Path) : String := Text.joined '/' (p.steps.map Step.text)

/-- A path as it is written. -/
def text (p : Path) : String := if p.isAbsolute then "/" ++ p.slashed else p.slashed

/-- The path `q` from the place `p`. A path from the root forgets `p`. -/
def join (p q : Path) : Path := if q.isAbsolute then q else ⟨p.isAbsolute, p.steps ++ q.steps⟩

/-- The path of an entry of a directory. -/
def child (p : Path) (name : String) : Path := ⟨p.isAbsolute, p.steps ++ [.name name]⟩

/-- The last name of a path, if it ends with one. -/
def fileName? (p : Path) : Option String := p.steps.getLast?.bind Step.name?

/-- The path of the directory that holds what a path names. -/
def parent (p : Path) : Path := ⟨p.isAbsolute, p.steps.dropLast⟩

/-- One step on a stack of steps that lead somewhere, the last one on top. Leaving the root
leads to the root. -/
def reduce (isAbsolute : Bool) (stack : List Step) : Step → List Step
  | .here => stack
  | .name n => .name n :: stack
  | .up =>
    match stack with
    | .name _ :: rest => rest
    | [] => if isAbsolute then [] else [.up]
    | stack => .up :: stack

/-- The same path without steps that lead nowhere. -/
def clean (p : Path) : Path :=
  ⟨p.isAbsolute, (p.steps.foldl (reduce p.isAbsolute) []).reverse⟩

/-- The way from a directory to a path below it or to itself. -/
def within? (p directory : Path) : Option Path :=
  if p.isAbsolute = directory.isAbsolute ∧ directory.steps <+: p.steps then
    some ⟨false, p.steps.drop directory.steps.length⟩
  else none

end Path

end Backwire.Package
