import Backwire.Schema.Lexeme
import Backwire.Wire.Builtin

/-!
# Schema files

What a schema file declares, in source order. A type is a leaf under a number of list marks. The
body of a definition leaves open what a leaf and what a field tag is: in a file as it is written
a leaf is a name and a tag any integer, and in a compiled package both have been resolved.
-/

namespace Backwire.Schema

/-- A type: lists of lists … of a leaf. -/
structure Listed (τ : Type) where
  depth : Nat
  leaf : τ
  deriving DecidableEq, Repr

/-- A name of a declared type, with the import it comes from if it is not of the same package. -/
structure Reference where
  qualifier : Option String
  name : String
  deriving DecidableEq, Repr

/-- A reference as it is written. -/
def Reference.text (r : Reference) : String :=
  match r.qualifier with
  | some q => q ++ "." ++ r.name
  | none => r.name

/-- The leaf of a type as it is written. -/
inductive TypeName where
  | builtin (b : Wire.Builtin)
  | named (r : Reference)
  deriving DecidableEq, Repr

/-- What an unqualified name stands for: builtin types go before declared ones. -/
def TypeName.ofWord (name : String) : TypeName :=
  match Wire.Builtin.ofName? name with
  | some b => .builtin b
  | none => .named ⟨none, name⟩

/-- An import of another package, under a local name of its own or under the last part of its
path. -/
structure Import where
  alias? : Option String
  path : String
  deriving DecidableEq, Repr

/-- An option of a file. -/
structure Setting where
  name : String
  value : String
  deriving DecidableEq, Repr

/-- A value of an enum. -/
structure EnumValue where
  name : String
  number : Int32
  deriving DecidableEq, Repr

/-- A field of a message. -/
structure Field (τ ι : Type) where
  name : String
  type : Listed τ
  tag : ι
  deriving DecidableEq, Repr

/-- A field of a struct, or a parameter or result of a method. -/
structure Parameter (τ : Type) where
  name : String
  type : Listed τ
  deriving DecidableEq, Repr

/-- A method of a service. -/
structure Method (τ : Type) where
  name : String
  args : List (Parameter τ)
  results : List (Parameter τ)
  deriving DecidableEq, Repr

/-- What a definition holds. -/
inductive Body (τ ι : Type) where
  | enum (values : List EnumValue)
  | message (fields : List (Field τ ι))
  | struct (fields : List (Parameter τ))
  | service (methods : List (Method τ))
  deriving DecidableEq, Repr

/-- A definition as it is written. -/
structure Definition where
  name : String
  body : Body TypeName Int64
  deriving DecidableEq, Repr

/-- A schema file. -/
structure SchemaFile where
  imports : List Import
  options : List Setting
  definitions : List Definition
  deriving DecidableEq, Repr

end Backwire.Schema
