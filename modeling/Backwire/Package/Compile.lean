import Backwire.Package.Rules

/-!
# Compiling packages

Compiling a package compiles the packages it imports before it finishes. An import leads to the
first import root that has a directory under its ID. A package that has been compiled is not
compiled again, and an import of a package whose own imports are still being followed is an
error. A failure leaves the session as it was.
-/

namespace Backwire.Package

open Schema

/-- Where packages are looked for. -/
structure Surroundings where
  /-- What is stored. -/
  tree : FileTree
  /-- The directory that relative paths start from. -/
  workingDirectory : Path
  /-- The import roots as they are given. None at all stands for the working directory. -/
  importPaths : List Path

namespace Surroundings

/-- The clean path from the root that a path stands for. -/
def absolute (e : Surroundings) (p : Path) : Path := (e.workingDirectory.join p).clean

/-- The import roots, in the order in which they are searched. -/
def roots (e : Surroundings) : List Path :=
  if e.importPaths = [] then [e.workingDirectory.clean] else e.importPaths.map e.absolute

/-- The directory of the package of an ID: the first under an import root that exists. -/
def directoryOf? (e : Surroundings) (id : String) : Option Path :=
  (e.roots.map fun root => (root.join (.ofText id)).clean).find? e.tree.isDirectory

/-- The ID of the package in a directory that is given by a path: the way to it from the first
root it is below, else the clean path as given, else its own name. -/
def packageId (e : Surroundings) (given : Path) : String :=
  let directory := e.absolute given
  let below := e.roots.findSome? fun root =>
    match directory.within? root with
    | some way => if way.slashed ≠ "" then some way.slashed else none
    | none => none
  match below with
  | some id => id
  | none =>
    let cleaned := given.clean
    if cleaned.isAbsolute then cleaned.text.map fun c => if c = '\\' then '/' else c
    else if cleaned.steps = [] then directory.fileName?.getD ""
    else cleaned.slashed

end Surroundings

/-- What goes on while imports are followed: a session that changes, and maybe an error in the end.
The changes that were made before an error are still there after it. -/
abbrev Compiling := EStateM CompileError Session

/-- Fails if what is given is an error. -/
def Compiling.require {α : Type} (r : Except CompileError α) : Compiling α :=
  match r with
  | .ok a => pure a
  | .error err => throw err

/-- The links of the files of a draft, each followed by `follow` in the order of the source. -/
def followLinks (follow : Location → String → Compiling Nat) (d : Draft) : Compiling Linked := do
  let files ← d.files.mapM fun f => do
    let location := Location.ofFile d.id f.name
    let imports ← f.imports.mapM fun l => do
      let number ← follow location l.id
      return (⟨l.id, l.name, number⟩ : Link Nat)
    return (⟨f.name, f.path, imports, f.options⟩ : File Nat)
  return ⟨d.id, d.directory, files, d.definitions⟩

/-- Resolves the types of a package, finishes it and checks it. -/
def conclude (number : Nat) (p : Linked) : Compiling Unit := do
  let package ← Compiling.require (resolveTypes (← get) number p)
  modify fun s => s.finish number package
  Compiling.require (checkRules (← get) number package)

/-- Why the package of an ID cannot be had while its own imports are followed. The import that has
led back to it stands in the file `from?`. -/
def Session.loopError (s : Session) (id : String) (from? : Option Location) : CompileError :=
  .circularImport (from?.getD (.ofFile id (s.firstFile id))) id (s.loopTo id)

/-- The number of a package that the session has. -/
def revisit (id : String) (from? : Option Location) : Compiling Nat := do
  match (← get).finished? id with
  | some i => return i
  | none => throw ((← get).loopError id from?)

/-- A list without the occurrences of an ID. -/
def without (id : String) (l : List String) : List String := l.filter (· ≠ id)

/-- Taking out a member leaves fewer. -/
theorem length_without_lt {a : String} {l : List String} (h : a ∈ l) :
    (without a l).length < l.length :=
  List.length_filter_lt_length_iff_exists.2 ⟨a, h, by simp⟩

/-- The number of the package of an ID, which lies in a directory and is imported by the file
`from?`. It is compiled if the session does not have it. The packages in `waiting` are those whose
imports are not being followed, of all that any file imports. -/
def visit (e : Surroundings) (waiting : List String) (directory : Path) (id : String)
    (from? : Option Location) : Compiling Nat := do
  if ((← get).indexOf? id).isSome then revisit id from?
  else
    let d ← Compiling.require (draft e.tree directory id)
    let number := (← get).entries.length
    modify fun s => s.start d
    let linked ← followLinks (fun location wanted =>
      match e.directoryOf? wanted with
      | none => throw (.notFound location (.package wanted))
      | some place =>
        if _h : wanted ∈ waiting then
          visit e (without wanted waiting) place wanted (some location)
        else revisit wanted (some location)) d
    conclude number linked
    return number
  termination_by waiting.length
  decreasing_by exact length_without_lt _h

/-- Compiles the package in a directory: its number or why there is none, and the session after it.
If this fails, everything that was added is taken out of the session again. -/
def Session.attempt (s : Session) (e : Surroundings) (given : Path) :
    Except CompileError Nat × Session :=
  match visit e (importIds e.tree) (e.absolute given) (e.packageId given) none s with
  | .ok number s' => (.ok number, s')
  | .error err s' => (.error err, s'.truncate s.entries.length)

/-- Compiles the package in a directory, and yields its number and the session after it. -/
def Session.compile (s : Session) (e : Surroundings) (given : Path) :
    Except CompileError (Nat × Session) :=
  match s.attempt e given with
  | (.ok number, s') => .ok (number, s')
  | (.error err, _) => .error err

end Backwire.Package
