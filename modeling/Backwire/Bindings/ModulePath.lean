import Backwire.Bindings.Code
import Backwire.Grammar.Reading

/-!
# Paths of modules

A path of modules leads to the items of a module. The path of an item is the path of its module,
`::` and the name of the item. How such a path is laid out, and whether it is one at all, depends
on whether it stands in a type or in a value: arguments in angle brackets need `::` before them in
a value, and without it they are comparisons, if anything.
-/

namespace Backwire.Bindings

open Code

/-- How a path of modules stands in values. -/
structure ValuePath where
  code : Code
  /-- Whether a value that begins with the path is an assignment. -/
  isAssignment : Bool
  deriving DecidableEq, Repr

/-- A path of modules. -/
structure ModulePath where
  /-- The path as it is given. -/
  code : Code
  /-- The path as it stands in types, if it can. -/
  type? : Option Code
  /-- The path as it stands in values, if it can. -/
  value? : Option ValuePath
  deriving DecidableEq, Repr

/-- Reads the path of modules that a text stands for. -/
abbrev PathReader := String → Except Grammar.Fault ModulePath

namespace ModulePath

/-- The path of identifiers. -/
def ofNames (names : List Identifier) : ModulePath :=
  let code := (names.map Identifier.text).intersperse "::"
  ⟨code, some code, some ⟨code, false⟩⟩

/-- A path in a type. -/
def typeCode (p : ModulePath) : Code := p.type?.getD []

/-- A path in a value. -/
def valueCode (p : ModulePath) : Code := (p.value?.map ValuePath.code).getD []

/-- What stands behind a value that begins with a path and is the last one of a block. An
assignment is a statement there. -/
def valueEnd (p : ModulePath) : Code := if p.value?.any ValuePath.isAssignment then [";"] else []

/-- Whether a path can stand in a type. -/
def isInTypes (p : ModulePath) : Bool := p.type?.isSome

/-- Whether a path can stand in a value. -/
def isInValues (p : ModulePath) : Bool := p.value?.isSome

/-- What leads from a module to one of its items. -/
def itemStep : List Grammar.Token := Grammar.Token.sign "::" ++ [.word "item" false]

/-- The code of the path of a module, where the path of its item is laid out so. -/
def withoutItem (c : Code) : Code := c.take (c.length - 2)

/-- The path of modules that a path of code is. -/
def ofPath (p : Grammar.Path) : ModulePath :=
  let given := p.phrase.given
  let type := Grammar.TypePhrase.ofTokens (given ++ itemStep)
  let value := Grammar.Expression.ofTokens (given ++ itemStep)
  ⟨Grammar.Token.texts given,
    type.toOption.map fun t => withoutItem t.phrase.tidy,
    value.toOption.map fun v => ⟨withoutItem v.phrase.tidy, v.kind = .assignment⟩⟩

/-- The path of modules that a text stands for, by the grammar of paths. -/
def ofText : PathReader := fun s => (Grammar.Path.ofText s).map ofPath

end ModulePath

end Backwire.Bindings
