import Backwire.Package.Path
import Backwire.Schema.Tree

/-!
# Packages

A package is a directory of schema files that share their names. It comes in two forms: as a
draft, in which imports and types are names, and compiled, in which every import has led to a
package and every named type to a definition. Packages are numbered in the order in which they
are found, and definitions in the order of files and, in a file, of the source.
-/

namespace Backwire.Package

open Schema

/-- A kind of definition that can be used as a type. -/
inductive Kind where
  | enum
  | message
  | struct
  deriving DecidableEq, Repr

/-- The name of a kind. -/
def Kind.name : Kind → String
  | enum => "enum"
  | message => "message"
  | struct => "struct"

/-- A definition of a numbered package. -/
structure DefinitionId where
  package : Nat
  index : Nat
  deriving DecidableEq, Repr

/-- What a named type was found to be: a definition of this kind, through this import of the file
or in the package of the file itself. -/
structure Target where
  kind : Kind
  definition : DefinitionId
  link? : Option Nat
  deriving DecidableEq, Repr

/-- The leaf of a resolved type. -/
inductive TypeUse where
  | builtin (b : Wire.Builtin)
  | named (written : Reference) (target : Target)
  deriving DecidableEq, Repr

/-- What a resolved type was found to be, if it is a declared one. -/
def TypeUse.target? : TypeUse → Option Target
  | builtin _ => none
  | named _ target => some target

/-- A leaf as it is written. -/
def TypeUse.text : TypeUse → String
  | builtin b => b.name
  | named written _ => written.text

/-- A type as it is written. -/
def TypeUse.listedText (t : Listed TypeUse) : String :=
  String.join (List.replicate t.depth "[]") ++ t.leaf.text

/-- An import of a file: the package it asks for, the name it has in the file, and, in a compiled
package, the number of the package it has led to. -/
structure Link (κ : Type) where
  id : String
  name : String
  package : κ
  deriving DecidableEq, Repr

/-- A file of a package. -/
structure File (κ : Type) where
  name : String
  path : Path
  imports : List (Link κ)
  options : List Setting
  deriving DecidableEq, Repr

/-- The name of a schema file ends with this. -/
def extension : String := ".spec"

/-- The name of a file without its ending. -/
def File.stem {κ : Type} (f : File κ) : String :=
  if extension.toList.isSuffixOf f.name.toList then
    String.ofList (f.name.toList.take (f.name.toList.length - extension.toList.length))
  else f.name

/-- The value of an option of a file. -/
def File.option? {κ : Type} (f : File κ) (name : String) : Option String :=
  (f.options.find? fun o => o.name == name).map Setting.value

/-- A definition of a package, with the number of its file. -/
structure Declared (τ : Type) where
  name : String
  file : Nat
  body : Body τ UInt16
  deriving DecidableEq, Repr

/-- The kind of a definition as a type. A service is none. -/
def Declared.kind? {τ : Type} (d : Declared τ) : Option Kind :=
  match d.body with
  | .enum _ => some .enum
  | .message _ => some .message
  | .struct _ => some .struct
  | .service _ => none

/-- A package whose links lead to a `κ` and whose types are made of `τ`. -/
structure PackageOf (κ τ : Type) where
  /-- The path by which other packages import it. -/
  id : String
  /-- Its directory. -/
  directory : Path
  /-- Its files, in the order of their names. -/
  files : List (File κ)
  /-- Its definitions, in the order of files and of the source. -/
  definitions : List (Declared τ)
  deriving DecidableEq, Repr

/-- A package whose imports and types are still names. -/
abbrev Draft := PackageOf Unit TypeName

/-- A compiled package. -/
abbrev Compiled := PackageOf Nat TypeUse

/-- The last segment of an ID. -/
def lastSegment (id : String) : String := ((Text.segments '/' id).getLast?).getD ""

namespace PackageOf

variable {κ τ : Type}

/-- The name of a package: the last segment of its ID. -/
def name (p : PackageOf κ τ) : String := lastSegment p.id

/-- The number of the definition of a name. -/
def indexOf? (p : PackageOf κ τ) (name : String) : Option Nat :=
  p.definitions.findIdx? fun d => d.name == name

/-- The value of an option in the first file that sets it. -/
def option? (p : PackageOf κ τ) (name : String) : Option String :=
  p.files.findSome? fun f => f.option? name

/-- The definitions of a file, with their numbers. -/
def definitionsOf (p : PackageOf κ τ) (file : Nat) : List (Declared τ × Nat) :=
  p.definitions.zipIdx.filter fun d => d.1.file == file

end PackageOf

end Backwire.Package
