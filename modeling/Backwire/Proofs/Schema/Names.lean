import Backwire.Schema.Layout

/-!
# Names of a schema

A tree of a schema need not come from a text: its names could be any strings. It is well formed if
its names can be written, which means that each is a word, and if no reference without a qualifier
would be taken for a builtin type. What the quoted texts of a schema hold does not matter.
-/

namespace Backwire.Schema

/-- Whether a text is a name: a letter or underscore, and any letters, digits and underscores
after it. -/
def isName (s : String) : Bool :=
  match s.toList with
  | [] => false
  | c :: cs => isWordStart c && cs.all isWordRest

/-- Whether a lexeme can be written: if it is a word, it is a name. -/
def Lexeme.isValid : Lexeme → Bool
  | word name => isName name
  | _ => true

@[simp] theorem Lexeme.isValid_word (name : String) : (word name).isValid = isName name := rfl
@[simp] theorem Lexeme.isValid_integer (value : Int64) : (integer value).isValid = true := rfl
@[simp] theorem Lexeme.isValid_text (value : String) : (text value).isValid = true := rfl
@[simp] theorem Lexeme.isValid_symbol (mark : Symbol) : (symbol mark).isValid = true := rfl

/-- A type names what can be named, and takes no declared type for a builtin one. -/
def TypeName.isWellFormed : TypeName → Bool
  | builtin _ => true
  | named ⟨some qualifier, name⟩ => isName qualifier && isName name
  | named ⟨none, name⟩ => isName name && (Wire.Builtin.ofName? name).isNone

/-- The names of a field of a struct, of a parameter or of a result can be written. -/
def Parameter.isWellFormed (p : Parameter TypeName) : Bool :=
  isName p.name && p.type.leaf.isWellFormed

/-- The names of a field of a message can be written. -/
def Field.isWellFormed (f : Field TypeName Int64) : Bool :=
  isName f.name && f.type.leaf.isWellFormed

/-- The names of a method can be written. -/
def Method.isWellFormed (m : Method TypeName) : Bool :=
  isName m.name && m.args.all Parameter.isWellFormed && m.results.all Parameter.isWellFormed

/-- The names of a body can be written. -/
def Body.isWellFormed : Body TypeName Int64 → Bool
  | enum values => values.all fun v => isName v.name
  | message fields => fields.all Field.isWellFormed
  | struct fields => fields.all Parameter.isWellFormed
  | service methods => methods.all Method.isWellFormed

/-- The names of a definition can be written. -/
def Definition.isWellFormed (d : Definition) : Bool := isName d.name && d.body.isWellFormed

/-- The local name of an import can be written, if it has one. -/
def Import.isWellFormed (i : Import) : Bool := i.alias?.all isName

/-- **The names of a file can be written**, and none of its references without a qualifier is the
name of a builtin type. -/
structure SchemaFile.WellFormed (f : SchemaFile) : Prop where
  imports : f.imports.all Import.isWellFormed
  options : f.options.all fun o => isName o.name
  definitions : f.definitions.all Definition.isWellFormed

end Backwire.Schema
