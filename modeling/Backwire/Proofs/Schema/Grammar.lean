import Backwire.Proofs.Schema.Names

/-!
# The grammar of schemas, as derivations

Which lexemes write which tree. A derivation follows the rules

    File       = (Import | Option | Definition)*
    Import     = "import" ( "(" (IDENT? STRING)* ")" | IDENT? STRING )
    Option     = "option" IDENT "=" STRING ";"
    Enum       = "enum" IDENT "{" (IDENT "=" INT ";")* "}"
    Message    = "message" IDENT "{" (IDENT Type INT ";")* "}"
    Struct     = "struct" IDENT "{" (IDENT Type ";")* "}"
    Service    = "service" IDENT "{" Method* "}"
    Method     = IDENT "(" Params? ")" ("(" Params? ")")? ";"
    Params     = IDENT Type ("," IDENT Type)*
    Type       = "[" "]" Type | IDENT ("." IDENT)?

and says nothing of how a reader finds it. The names of what is derived are words of the lexemes
(`IsFile.wellFormed`).
-/

namespace Backwire.Schema.Phrases

open Schema.Parser (Declaration)

/-- A kind of phrase: which lexemes write which value. -/
abbrev Phrase (α : Type) := List Lexeme → α → Prop

variable {α : Type}

/-- Any number of phrases, one after another. -/
inductive Many (item : Phrase α) : Phrase (List α)
  | nil : Many item [] []
  | cons {ls ms : List Lexeme} {a : α} {as : List α} (first : item ls a)
      (others : Many item ms as) : Many item (ls ++ ms) (a :: as)

theorem Many.append {item : Phrase α} {ls ms : List Lexeme} {as bs : List α}
    (h : Many item ls as) (h' : Many item ms bs) : Many item (ls ++ ms) (as ++ bs) := by
  induction h with
  | nil => exact h'
  | cons first _ ih => rw [List.append_assoc]; exact .cons first ih

/-- A phrase behind a symbol. -/
inductive Behind (mark : Symbol) (item : Phrase α) : Phrase α
  | mk {ls : List Lexeme} {a : α} (phrase : item ls a) : Behind mark item (.symbol mark :: ls) a

/-- A phrase before a symbol. -/
inductive Before (mark : Symbol) (item : Phrase α) : Phrase α
  | mk {ls : List Lexeme} {a : α} (phrase : item ls a) :
      Before mark item (ls ++ [.symbol mark]) a

/-- A name of a type. -/
inductive IsTypeName : Phrase TypeName
  | plain (name : String) : IsTypeName [.word name] (.ofWord name)
  | qualified (qualifier name : String) :
      IsTypeName [.word qualifier, .symbol .dot, .word name] (.named ⟨some qualifier, name⟩)

/-- A type: a name behind any number of list marks. -/
inductive IsType : Phrase (Listed TypeName)
  | leaf {ls : List Lexeme} {leaf : TypeName} (name : IsTypeName ls leaf) : IsType ls ⟨0, leaf⟩
  | list {ls : List Lexeme} {depth : Nat} {leaf : TypeName} (element : IsType ls ⟨depth, leaf⟩) :
      IsType (.symbol .openBracket :: .symbol .closeBracket :: ls) ⟨depth + 1, leaf⟩

/-- A name and its type. -/
inductive IsParameter : Phrase (Parameter TypeName)
  | mk {ls : List Lexeme} {type : Listed TypeName} (name : String) (of : IsType ls type) :
      IsParameter (.word name :: ls) ⟨name, type⟩

/-- Parameters in parentheses, with commas between them. -/
inductive IsParameters : Phrase (List (Parameter TypeName))
  | none : IsParameters [.symbol .openParen, .symbol .closeParen] []
  | some {ls ms : List Lexeme} {p : Parameter TypeName} {ps : List (Parameter TypeName)}
      (first : IsParameter ls p) (others : Many (Behind .comma IsParameter) ms ps) :
      IsParameters (.symbol .openParen :: ls ++ ms ++ [.symbol .closeParen]) (p :: ps)

/-- A value of an enum. -/
inductive IsEnumValue : Phrase EnumValue
  | mk (name : String) (number : Int32) :
      IsEnumValue [.word name, .symbol .equals, .integer number.toInt64] ⟨name, number⟩

/-- A field of a message. -/
inductive IsMessageField : Phrase (Field TypeName Int64)
  | mk {ls : List Lexeme} {type : Listed TypeName} (name : String) (of : IsType ls type)
      (tag : Int64) : IsMessageField (.word name :: ls ++ [.integer tag]) ⟨name, type, tag⟩

/-- A method, with results in parentheses or none. -/
inductive IsMethod : Phrase (Method TypeName)
  | plain {ls : List Lexeme} {args : List (Parameter TypeName)} (name : String)
      (takes : IsParameters ls args) : IsMethod (.word name :: ls) ⟨name, args, []⟩
  | returning {ls ms : List Lexeme} {args results : List (Parameter TypeName)} (name : String)
      (takes : IsParameters ls args) (returns : IsParameters ms results) :
      IsMethod (.word name :: ls ++ ms) ⟨name, args, results⟩

/-- Entries in braces, each with a semicolon behind it. -/
inductive IsBlock (entry : Phrase α) : Phrase (List α)
  | mk {ls : List Lexeme} {as : List α} (entries : Many (Before .semicolon entry) ls as) :
      IsBlock entry (.symbol .openBrace :: ls ++ [.symbol .closeBrace]) as

/-- A definition. -/
inductive IsDefinition : Phrase Definition
  | enum {ls : List Lexeme} {values : List EnumValue} (name : String)
      (block : IsBlock IsEnumValue ls values) :
      IsDefinition (.word "enum" :: .word name :: ls) ⟨name, .enum values⟩
  | message {ls : List Lexeme} {fields : List (Field TypeName Int64)} (name : String)
      (block : IsBlock IsMessageField ls fields) :
      IsDefinition (.word "message" :: .word name :: ls) ⟨name, .message fields⟩
  | struct {ls : List Lexeme} {fields : List (Parameter TypeName)} (name : String)
      (block : IsBlock IsParameter ls fields) :
      IsDefinition (.word "struct" :: .word name :: ls) ⟨name, .struct fields⟩
  | service {ls : List Lexeme} {methods : List (Method TypeName)} (name : String)
      (block : IsBlock IsMethod ls methods) :
      IsDefinition (.word "service" :: .word name :: ls) ⟨name, .service methods⟩

/-- A path of an import, with a local name before it or none. -/
inductive IsImportSpec : Phrase Import
  | plain (path : String) : IsImportSpec [.text path] ⟨none, path⟩
  | named (name path : String) : IsImportSpec [.word name, .text path] ⟨some name, path⟩

/-- What follows the word `import`: one path, or any number of them in parentheses. -/
inductive IsImports : Phrase (List Import)
  | single {ls : List Lexeme} {i : Import} (spec : IsImportSpec ls i) : IsImports ls [i]
  | group {ls : List Lexeme} {is : List Import} (specs : Many IsImportSpec ls is) :
      IsImports (.symbol .openParen :: ls ++ [.symbol .closeParen]) is

/-- What follows the word `option`. -/
inductive IsSetting : Phrase Setting
  | mk (name value : String) :
      IsSetting [.word name, .symbol .equals, .text value, .symbol .semicolon] ⟨name, value⟩

/-- A declaration. -/
inductive IsDeclaration : Phrase Declaration
  | imports {ls : List Lexeme} {is : List Import} (specs : IsImports ls is) :
      IsDeclaration (.word "import" :: ls) (.imports is)
  | option {ls : List Lexeme} {o : Setting} (setting : IsSetting ls o) :
      IsDeclaration (.word "option" :: ls) (.option o)
  | definition {ls : List Lexeme} {d : Definition} (of : IsDefinition ls d) :
      IsDeclaration ls (.definition d)

/-- The file of declarations: what they declare, in source order. -/
def gather (ds : List Declaration) : SchemaFile :=
  ⟨ds.flatMap Declaration.imports?, ds.filterMap Declaration.option?,
    ds.filterMap Declaration.definition?⟩

section Gather

variable (is : List Import) (o : Setting) (d : Definition) (ds : List Declaration)

theorem gather_imports_cons :
    gather (.imports is :: ds) = { gather ds with imports := is ++ (gather ds).imports } := rfl

theorem gather_option_cons :
    gather (.option o :: ds) = { gather ds with options := o :: (gather ds).options } := rfl

theorem gather_definition_cons :
    gather (.definition d :: ds) = { gather ds with definitions := d :: (gather ds).definitions } :=
  rfl

end Gather

/-- **A file**: any number of declarations. -/
inductive IsFile : Phrase SchemaFile
  | mk {ls : List Lexeme} {ds : List Declaration} (declarations : Many IsDeclaration ls ds) :
      IsFile ls (gather ds)

/-! ### How phrases begin -/

/-- Every phrase of a kind begins with a certain kind of lexeme. -/
def BeginsWith (first : Lexeme → Prop) (phrase : Phrase α) : Prop :=
  ∀ {ls a}, phrase ls a → ∃ l ms, ls = l :: ms ∧ first l

/-- A lexeme is a word. -/
def IsWord (l : Lexeme) : Prop := ∃ name, l = .word name

theorem isTypeName_beginsWith : BeginsWith IsWord IsTypeName := by
  rintro _ _ (name | name) <;> exact ⟨_, _, rfl, name, rfl⟩

theorem isParameter_beginsWith : BeginsWith IsWord IsParameter := by
  rintro _ _ ⟨name⟩
  exact ⟨_, _, rfl, name, rfl⟩

theorem isParameters_beginsWith : BeginsWith (· = .symbol .openParen) IsParameters := by
  rintro _ _ (_ | _) <;> exact ⟨_, _, rfl, rfl⟩

theorem isEnumValue_beginsWith : BeginsWith IsWord IsEnumValue := by
  rintro _ _ ⟨name⟩
  exact ⟨_, _, rfl, name, rfl⟩

theorem isMessageField_beginsWith : BeginsWith IsWord IsMessageField := by
  rintro _ _ ⟨name⟩
  exact ⟨_, _, rfl, name, rfl⟩

theorem isMethod_beginsWith : BeginsWith IsWord IsMethod := by
  rintro _ _ (name | name) <;> exact ⟨_, _, rfl, name, rfl⟩

theorem isDeclaration_beginsWith : BeginsWith IsWord IsDeclaration := by
  rintro _ _ (_ | _ | ⟨_ | _ | _ | _⟩) <;> exact ⟨_, _, rfl, _, rfl⟩

/-- An import begins with its local name or its path, and so with no symbol. -/
theorem isImportSpec_beginsWith :
    BeginsWith (fun l => ∀ mark, l ≠ .symbol mark) IsImportSpec := by
  rintro _ _ (_ | _) <;> exact ⟨_, _, rfl, by simp⟩

theorem behind_beginsWith {mark : Symbol} {item : Phrase α} :
    BeginsWith (· = .symbol mark) (Behind mark item) := by
  rintro _ _ ⟨_⟩
  exact ⟨_, _, rfl, rfl⟩

theorem before_beginsWith {mark : Symbol} {first : Lexeme → Prop} {item : Phrase α}
    (h : BeginsWith first item) : BeginsWith first (Before mark item) := by
  rintro _ _ ⟨phrase⟩
  obtain ⟨l, ms, rfl, hl⟩ := h phrase
  exact ⟨l, _, rfl, hl⟩

/-- Items up to a symbol begin with an item or, if there is none, with the symbol. -/
theorem before_many_beginsWith {mark : Symbol} {first : Lexeme → Prop} {item : Phrase α}
    (h : BeginsWith first item) :
    BeginsWith (fun l => l = .symbol mark ∨ first l) (Before mark (Many item)) := by
  rintro _ _ ⟨hmany⟩
  cases hmany with
  | nil => exact ⟨_, _, rfl, .inl rfl⟩
  | cons hfirst _ =>
    obtain ⟨l, ms, rfl, hl⟩ := h hfirst
    exact ⟨l, _, rfl, .inr hl⟩

/-! ### What is derived can be written -/

section Validity

variable {ls : List Lexeme} {as : List α}

theorem Many.all {item : Phrase α} {good : α → Bool} (hmany : Many item ls as)
    (hitem : ∀ {ls a}, item ls a → ls.all Lexeme.isValid → good a) (h : ls.all Lexeme.isValid) :
    as.all good := by
  induction hmany with
  | nil => rfl
  | cons first _ ih =>
    rw [List.all_append, Bool.and_eq_true] at h
    rw [List.all_cons, hitem first h.1, ih h.2]
    rfl

theorem IsTypeName.isWellFormed {leaf : TypeName} (hname : IsTypeName ls leaf)
    (h : ls.all Lexeme.isValid) : leaf.isWellFormed := by
  cases hname with
  | plain name =>
    rw [TypeName.ofWord]
    cases hbuiltin : Wire.Builtin.ofName? name with
    | some b => rfl
    | none => simpa [TypeName.isWellFormed, hbuiltin] using h
  | qualified qualifier name => simpa [TypeName.isWellFormed] using h

theorem IsType.isWellFormed {type : Listed TypeName} (htype : IsType ls type)
    (h : ls.all Lexeme.isValid) : type.leaf.isWellFormed := by
  induction htype with
  | leaf name => exact name.isWellFormed h
  | list _ ih => exact ih (by simpa using h)

theorem IsParameter.isWellFormed {p : Parameter TypeName} (hp : IsParameter ls p)
    (h : ls.all Lexeme.isValid) : p.isWellFormed := by
  obtain ⟨name, of⟩ := hp
  rw [List.all_cons, Bool.and_eq_true] at h
  simp only [Parameter.isWellFormed, Bool.and_eq_true]
  exact ⟨h.1, of.isWellFormed h.2⟩

theorem IsParameters.isWellFormed {ps : List (Parameter TypeName)} (hps : IsParameters ls ps)
    (h : ls.all Lexeme.isValid) : ps.all Parameter.isWellFormed := by
  cases hps with
  | none => rfl
  | some first others =>
    simp only [List.all_append, List.all_cons, Bool.and_eq_true] at h ⊢
    obtain ⟨⟨⟨-, hfirst⟩, hothers⟩, -⟩ := h
    refine ⟨first.isWellFormed hfirst, others.all ?_ hothers⟩
    rintro _ _ ⟨of⟩ h
    exact of.isWellFormed (by simpa using h)

theorem IsEnumValue.isWellFormed {v : EnumValue} (hv : IsEnumValue ls v)
    (h : ls.all Lexeme.isValid) : isName v.name := by
  obtain ⟨name, number⟩ := hv
  simpa using h

theorem IsMessageField.isWellFormed {f : Field TypeName Int64} (hf : IsMessageField ls f)
    (h : ls.all Lexeme.isValid) : f.isWellFormed := by
  obtain ⟨name, of, tag⟩ := hf
  simp only [List.all_append, List.all_cons, Bool.and_eq_true] at h
  simp only [Field.isWellFormed, Bool.and_eq_true]
  exact ⟨h.1.1, of.isWellFormed h.1.2⟩

theorem IsMethod.isWellFormed {m : Method TypeName} (hm : IsMethod ls m)
    (h : ls.all Lexeme.isValid) : m.isWellFormed := by
  simp only [Method.isWellFormed, Bool.and_eq_true]
  cases hm with
  | plain name takes =>
    rw [List.all_cons, Bool.and_eq_true] at h
    exact ⟨⟨h.1, takes.isWellFormed h.2⟩, rfl⟩
  | returning name takes returns =>
    simp only [List.all_append, List.all_cons, Bool.and_eq_true] at h
    exact ⟨⟨h.1.1, takes.isWellFormed h.1.2⟩, returns.isWellFormed h.2⟩

theorem IsBlock.all {entry : Phrase α} {good : α → Bool} (hblock : IsBlock entry ls as)
    (hentry : ∀ {ls a}, entry ls a → ls.all Lexeme.isValid → good a)
    (h : ls.all Lexeme.isValid) : as.all good := by
  obtain ⟨entries⟩ := hblock
  simp only [List.all_append, List.all_cons, Bool.and_eq_true] at h
  refine entries.all ?_ h.1.2
  rintro _ _ ⟨of⟩ h
  exact hentry of (by simpa using h)

theorem IsDefinition.isWellFormed {d : Definition} (hd : IsDefinition ls d)
    (h : ls.all Lexeme.isValid) : d.isWellFormed := by
  simp only [Definition.isWellFormed, Bool.and_eq_true]
  cases hd with
  | enum name block =>
    simp only [List.all_cons, Bool.and_eq_true] at h
    exact ⟨h.2.1, block.all IsEnumValue.isWellFormed h.2.2⟩
  | message name block =>
    simp only [List.all_cons, Bool.and_eq_true] at h
    exact ⟨h.2.1, block.all IsMessageField.isWellFormed h.2.2⟩
  | struct name block =>
    simp only [List.all_cons, Bool.and_eq_true] at h
    exact ⟨h.2.1, block.all IsParameter.isWellFormed h.2.2⟩
  | service name block =>
    simp only [List.all_cons, Bool.and_eq_true] at h
    exact ⟨h.2.1, block.all IsMethod.isWellFormed h.2.2⟩

theorem IsImportSpec.isWellFormed {i : Import} (hi : IsImportSpec ls i)
    (h : ls.all Lexeme.isValid) : i.isWellFormed := by
  cases hi with
  | plain path => rfl
  | named name path => simpa [Import.isWellFormed] using h

theorem IsImports.isWellFormed {is : List Import} (his : IsImports ls is)
    (h : ls.all Lexeme.isValid) : is.all Import.isWellFormed := by
  cases his with
  | single spec => simpa using spec.isWellFormed h
  | group specs =>
    simp only [List.all_append, List.all_cons, Bool.and_eq_true] at h
    exact specs.all IsImportSpec.isWellFormed h.1.2

/-- The names of a declaration can be written. -/
def Declaration.isWellFormed : Declaration → Bool
  | .imports is => is.all Import.isWellFormed
  | .option o => isName o.name
  | .definition d => d.isWellFormed

theorem IsDeclaration.isWellFormed {d : Declaration} (hd : IsDeclaration ls d)
    (h : ls.all Lexeme.isValid) : Declaration.isWellFormed d := by
  cases hd with
  | imports specs =>
    rw [List.all_cons, Bool.and_eq_true] at h
    exact specs.isWellFormed h.2
  | option setting =>
    obtain ⟨name, value⟩ := setting
    simp only [List.all_cons, Bool.and_eq_true] at h
    exact h.2.1
  | definition of => exact of.isWellFormed h

theorem gather_wellFormed {ds : List Declaration} (h : ds.all Declaration.isWellFormed) :
    (gather ds).WellFormed := by
  induction ds with
  | nil => exact ⟨rfl, rfl, rfl⟩
  | cons d ds ih =>
    rw [List.all_cons, Bool.and_eq_true] at h
    obtain ⟨hd, hds⟩ := h
    obtain ⟨himports, hoptions, hdefinitions⟩ := ih hds
    cases d with
    | imports is =>
      rw [gather_imports_cons]
      exact ⟨by rw [List.all_append, himports, Bool.and_true]; exact hd, hoptions, hdefinitions⟩
    | option o =>
      rw [gather_option_cons]
      exact ⟨himports, by rw [List.all_cons, hoptions, Bool.and_true]; exact hd, hdefinitions⟩
    | definition d =>
      rw [gather_definition_cons]
      exact ⟨himports, hoptions, by rw [List.all_cons, hdefinitions, Bool.and_true]; exact hd⟩

/-- **The tree of a derivation is well formed** if the words of the file can be written. -/
theorem IsFile.wellFormed {f : SchemaFile} (hf : IsFile ls f) (h : ls.all Lexeme.isValid) :
    f.WellFormed := by
  obtain ⟨declarations⟩ := hf
  exact gather_wellFormed (declarations.all IsDeclaration.isWellFormed h)

end Validity

end Backwire.Schema.Phrases
