import Backwire.Package.Model

/-!
# Sessions

A session holds the packages that have been found so far, each under its ID and never replaced.
A package is started when it is found and finished when all of its imports and types have been
resolved; the ones that are started and not finished are those whose imports are being followed.
The index leads from an ID to the number of its package. What was added since the session had a
certain number of packages can be taken out again, packages and index together.
-/

namespace Backwire.Package

open Schema

/-- A package of a session. -/
inductive Entry where
  /-- Its imports are being followed. -/
  | started (d : Draft)
  | finished (p : Compiled)
  deriving DecidableEq, Repr

namespace Entry

/-- The ID of a package. -/
def id : Entry → String
  | started d => d.id
  | finished p => p.id

/-- The names of the files of a package. -/
def fileNames : Entry → List String
  | started d => d.files.map File.name
  | finished p => p.files.map File.name

/-- A package that is finished. -/
def package? : Entry → Option Compiled
  | started _ => none
  | finished p => some p

/-- The ID of a package that is not finished. -/
def started? : Entry → Option String
  | started d => some d.id
  | finished _ => none

end Entry

/-- The packages found so far. -/
structure Session where
  /-- The packages by their numbers. -/
  entries : List Entry
  /-- The number of the package of each ID. -/
  index : List (String × Nat)
  deriving DecidableEq, Repr

namespace Session

/-- The session before any package has been compiled. -/
def empty : Session := ⟨[], []⟩

/-- The IDs of all packages. -/
def ids (s : Session) : List String := s.entries.map Entry.id

/-- The number of the package of an ID. -/
def indexOf? (s : Session) (id : String) : Option Nat := s.index.lookup id

/-- The finished package of a number. -/
def package? (s : Session) (i : Nat) : Option Compiled := s.entries[i]?.bind Entry.package?

/-- The finished packages, with their numbers. -/
def packages (s : Session) : List (Compiled × Nat) :=
  s.entries.zipIdx.filterMap fun (e, i) => e.package?.map fun p => (p, i)

/-- A definition of a finished package. -/
def definition? (s : Session) (d : DefinitionId) : Option (Declared TypeUse) :=
  (s.package? d.package).bind fun p => p.definitions[d.index]?

/-- Every definition of a finished package. -/
def definitionIds (s : Session) : List DefinitionId :=
  s.packages.flatMap fun (p, i) => (List.range p.definitions.length).map fun j => ⟨i, j⟩

/-- The session with one more package, which is started. -/
def start (s : Session) (d : Draft) : Session :=
  ⟨s.entries ++ [.started d], (d.id, s.entries.length) :: s.index.filter (·.1 ≠ d.id)⟩

/-- The session in which the package of a number is finished. -/
def finish (s : Session) (i : Nat) (p : Compiled) : Session :=
  { s with entries := s.entries.set i (.finished p) }

/-- The session with no more than its first `n` packages. -/
def truncate (s : Session) (n : Nat) : Session := ⟨s.entries.take n, s.index.filter (·.2 < n)⟩

/-- The number of the package of an ID, if it is finished. -/
def finished? (s : Session) (id : String) : Option Nat :=
  (s.indexOf? id).filter fun i => (s.package? i).isSome

/-- The packages from that of an ID on. -/
def since (s : Session) (id : String) : List Entry := s.entries.drop ((s.indexOf? id).getD 0)

/-- The IDs of the packages whose imports are being followed, from the one of an ID on, and back
to it. -/
def loopTo (s : Session) (id : String) : List String :=
  (s.since id).filterMap Entry.started? ++ [id]

/-- The first file of the package of an ID. -/
def firstFile (s : Session) (id : String) : String :=
  ((s.since id).head?.bind fun entry => entry.fileNames.head?).getD ""

end Session

end Backwire.Package
