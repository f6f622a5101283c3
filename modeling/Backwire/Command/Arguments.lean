/-!
# Arguments of the program

The program is told what to do by a verb, and how by options and operands. Options may stand
anywhere behind the verb they belong to, short ones may be written together, and what follows
`--` is operands only. The first argument that does not fit, or that asks for help, decides.
-/

namespace Backwire.Command

/-- An option. -/
inductive OptionName where
  | verbose
  | help
  | version
  | importPath
  | config
  | runtime
  | noHeader
  | write
  deriving DecidableEq, Repr

namespace OptionName

/-- The long form of an option, behind its dashes. -/
def long : OptionName → String
  | verbose => "verbose"
  | help => "help"
  | version => "version"
  | importPath => "import-path"
  | config => "config"
  | runtime => "runtime-crate"
  | noHeader => "no-header"
  | write => "write"

/-- The short form of an option, behind its dash. -/
def short? : OptionName → Option Char
  | verbose => some 'v'
  | help => some 'h'
  | version => some 'V'
  | importPath => some 'i'
  | write => some 'w'
  | config | runtime | noHeader => none

/-- Whether a value belongs to an option. -/
def takesValue : OptionName → Bool
  | importPath | config | runtime => true
  | _ => false

/-- Whether the value of an option is a path, which is never empty. -/
def takesPath : OptionName → Bool
  | importPath | config => true
  | _ => false

/-- Whether an option may be given more than once. -/
def mayRepeat : OptionName → Bool
  | verbose | importPath => true
  | _ => false

end OptionName

/-- What the program is told to do. -/
inductive Verb where
  | compile
  | check
  | format
  deriving DecidableEq, Repr

namespace Verb

/-- Every verb. -/
def all : List Verb := [compile, check, format]

/-- A verb as it is written. -/
def text : Verb → String
  | compile => "compile"
  | check => "check"
  | format => "fmt"

/-- The verb of a text. -/
def ofText? (s : String) : Option Verb := all.find? fun v => v.text == s

/-- The options of a verb. -/
def options : Verb → List OptionName
  | compile => [.verbose, .help, .importPath, .config, .runtime, .noHeader]
  | check => [.verbose, .help, .importPath, .config]
  | format => [.verbose, .help, .write]

/-- How many operands belong to a verb. -/
def operandCount : Verb → Nat
  | compile => 2
  | check | format => 1

end Verb

/-- Why arguments are not followed. -/
inductive Refusal where
  /-- They do not fit. -/
  | misuse
  /-- They ask how the program is used. -/
  | help
  /-- They ask which version the program is. -/
  | version
  deriving DecidableEq, Repr

/-- Options and operands. -/
structure Arguments where
  options : List (OptionName × String)
  operands : List String
  deriving DecidableEq, Repr

namespace Arguments

/-- No arguments. -/
def none : Arguments := ⟨[], []⟩

/-- Whether an option is given. -/
def has (a : Arguments) (o : OptionName) : Bool := a.options.any fun p => p.1 == o

/-- The values of an option, in order. -/
def values (a : Arguments) (o : OptionName) : List String :=
  a.options.filterMap fun p => if p.1 = o then some p.2 else Option.none

/-- The arguments with one more option. -/
def addOption (a : Arguments) (o : OptionName) (value : String) : Except Refusal Arguments :=
  if o = .help then .error .help
  else if o = .version then .error .version
  else if (a.has o ∧ ¬ o.mayRepeat) ∨ (o.takesPath ∧ value = "") then .error .misuse
  else .ok ⟨a.options ++ [(o, value)], a.operands⟩

/-- The arguments with one more operand, of which there may be so many. -/
def addOperand (count : Nat) (a : Arguments) (operand : String) : Except Refusal Arguments :=
  if a.operands.length < count ∧ operand ≠ "" then .ok ⟨a.options, a.operands ++ [operand]⟩
  else .error .misuse

/-- Reads options that are written together behind one dash. The last of them may want a value
that does not stand with it. -/
def addCluster (known : List OptionName) (a : Arguments) :
    List Char → Except Refusal (Arguments × Option OptionName)
  | [] => .ok (a, Option.none)
  | c :: cs =>
    match known.find? fun o => o.short? == some c with
    | Option.none => .error .misuse
    | some o =>
      if o.takesValue then
        match cs with
        | [] => .ok (a, some o)
        | '=' :: value => do return (← a.addOption o (String.ofList value), Option.none)
        | value => do return (← a.addOption o (String.ofList value), Option.none)
      else do addCluster known (← a.addOption o "") cs

/-- Reads an option in its long form, behind its dashes. -/
def addLong (known : List OptionName) (a : Arguments) (cs : List Char) :
    Except Refusal (Arguments × Option OptionName) :=
  let name := String.ofList (cs.takeWhile (· != '='))
  match known.find? fun o => o.long == name with
  | Option.none => .error .misuse
  | some o =>
    match cs.dropWhile (· != '='), o.takesValue with
    | _ :: value, true => do return (← a.addOption o (String.ofList value), Option.none)
    | [], true => .ok (a, some o)
    | [], false => do return (← a.addOption o "", Option.none)
    | _ :: _, false => .error .misuse

/-- Whether an argument is the value or operand that it looks like, and no option. -/
def isPlain (s : String) : Bool := s = "-" || s.toList.head? != some '-'

/-- Reads an argument that begins with a dash. -/
def addDashed (known : List OptionName) (a : Arguments) (s : String) :
    Except Refusal (Arguments × Option OptionName) :=
  match s.toList with
  | '-' :: '-' :: cs => addLong known a cs
  | cs => addCluster known a (cs.drop 1)

/-- Reads options and operands. -/
def read (known : List OptionName) (count : Nat) (a : Arguments) :
    List String → Except Refusal Arguments
  | [] => if a.operands.length = count then .ok a else .error .misuse
  | s :: rest =>
    if s = "--" then do
      let a ← rest.foldlM (addOperand count) a
      if a.operands.length = count then return a else throw .misuse
    else if isPlain s then do read known count (← a.addOperand count s) rest
    else
      match a.addDashed known s with
      | .error e => .error e
      | .ok (a, Option.none) => read known count a rest
      | .ok (a, some o) =>
        match rest with
        | [] => .error .misuse
        | value :: rest =>
          if isPlain value then do read known count (← a.addOption o value) rest
          else .error .misuse

end Arguments

/-- The options that may stand before the verb. -/
def leadingOptions : List OptionName := [.verbose, .help, .version]

/-- Reads what follows the word `help`: a verb or nothing. -/
def readHelp : List String → Refusal
  | [] | ["help"] => .help
  | [s] => if (Verb.ofText? s).isSome then .help else .misuse
  | _ => .misuse

/-- Reads all arguments, behind options that have been read. -/
def readCommand (a : Arguments) : List String → Except Refusal (Verb × Arguments)
  | [] => .error .misuse
  | s :: rest =>
    if s = "--" then .error .misuse
    else if s = "help" then .error (readHelp rest)
    else if Arguments.isPlain s then
      match Verb.ofText? s with
      | some v => do return (v, ← Arguments.read v.options v.operandCount .none rest)
      | none => .error .misuse
    else
      match a.addDashed leadingOptions s with
      | .error e => .error e
      | .ok (a, _) => readCommand a rest

end Backwire.Command
