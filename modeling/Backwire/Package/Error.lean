import Backwire.Package.FileTree
import Backwire.Package.Model
import Backwire.Schema.Quoted

/-!
# Why a package does not compile

Each error is a cause and the place of what breaks a rule.
-/

namespace Backwire.Package

open Schema

/-- A place in a package: a file, a definition in it, or a member of either. -/
structure Location where
  package : String
  file : String
  definition? : Option String
  member? : Option String
  deriving DecidableEq, Repr

namespace Location

/-- The place of a file. -/
def ofFile (package file : String) : Location := ⟨package, file, none, none⟩

/-- The place of a definition of a file. -/
def definition (l : Location) (name : String) : Location := ⟨l.package, l.file, some name, none⟩

/-- The place of a member. -/
def member (l : Location) (name : String) : Location :=
  ⟨l.package, l.file, l.definition?, some name⟩

/-- A place as reports name it. -/
def text (l : Location) : String :=
  let file := l.package ++ "/" ++ l.file
  match l.definition?, l.member? with
  | some d, some m => file ++ ": " ++ d ++ "." ++ m
  | some n, none | none, some n => file ++ ": " ++ n
  | none, none => file

end Location

/-- What a look-up did not find. -/
inductive Missing where
  /-- No import root has a directory for the package of this ID. -/
  | package (id : String)
  /-- The file has no import of this local name. -/
  | localName (name : String)
  /-- The package has no type of this name. -/
  | type (reference : Reference)
  deriving DecidableEq, Repr

/-- What was not found, as reports name it. -/
def Missing.text : Missing → String
  | package id => "import " ++ Quoted.quote id
  | localName name => "import " ++ name
  | type reference => "type " ++ reference.text

/-- Why a struct cannot have a field of a type. -/
inductive StructFault where
  | containsItself (name : String)
  | variableSize (b : Wire.Builtin)
  | list
  | enum
  | message
  deriving DecidableEq, Repr

/-- The report of a struct field. -/
def StructFault.report : StructFault → String
  | containsItself name => "struct " ++ name ++ " contains itself"
  | variableSize b => b.name ++ " is not a fixed-size value"
  | list => "lists are not allowed in structs"
  | enum => "enums are not allowed in structs"
  | message => "messages are not allowed in structs"

/-- Why a package does not compile. -/
inductive CompileError where
  /-- A file is no schema. -/
  | malformed (file : Path) (error : SyntaxError)
  /-- A directory has no schema files. -/
  | emptyPackage (package : String) (directory : Path)
  /-- Imports lead back to the package that began them; the chain starts and ends with it. -/
  | circularImport (location : Location) (package : String) (chain : List String)
  | notFound (location : Location) (what : Missing)
  | duplicateName (location : Location) (name : String)
  /-- Two fields of a message have one tag, or two values of an enum one number. -/
  | duplicateTag (location : Location) (tag : Int)
  /-- A tag of a message field does not fit in 16 bits, or is zero. -/
  | invalidTag (location : Location) (tag : Int64)
  /-- An enum has no value of number zero. -/
  | missingZero (location : Location)
  | invalidStructField (location : Location) (fault : StructFault)
  | unreadable (path : Path) (fault : FileFault)
  deriving DecidableEq, Repr

/-- The report of an error. -/
def CompileError.message : CompileError → String
  | malformed file error => error.message file.text
  | emptyPackage package directory =>
    package ++ ": empty package: no .spec files in " ++ directory.text
  | circularImport location _ chain =>
    location.text ++ ": circular import: " ++ " -> ".intercalate chain
  | notFound location what => location.text ++ ": not found: " ++ what.text
  | duplicateName location name => location.text ++ ": duplicate name: " ++ name
  | duplicateTag location tag => location.text ++ ": duplicate tag: " ++ toString tag
  | invalidTag location tag =>
    location.text ++ ": invalid tag " ++ toString tag.toInt ++ ": must be in 1..=65535"
  | missingZero location => location.text ++ ": missing zero value"
  | invalidStructField location fault =>
    location.text ++ ": invalid struct field: " ++ fault.report
  | unreadable path fault => path.text ++ ": " ++ fault.message

end Backwire.Package
