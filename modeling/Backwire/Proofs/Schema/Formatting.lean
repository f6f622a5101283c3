import Backwire.Proofs.Schema.Parsing
import Backwire.Proofs.Schema.Spacing

/-!
# Formatting keeps a schema

The lexemes of a layout derive the tree that was laid out (`isFile_lexemes`), so the canonical text
of a well-formed tree is parsed back to that tree. As every tree that is parsed is well formed,
formatting a text keeps its tree, and formatting again changes nothing.
-/

namespace Backwire.Schema

open Phrases

namespace Layout

open Piece

variable {ps qs : List Piece}

/-! ### Lexemes of pieces -/

@[simp] theorem lexemes_nil : lexemes [] = [] := rfl

@[simp] theorem lexemes_word (name : String) :
    lexemes (word name :: ps) = .word name :: lexemes ps := rfl

@[simp] theorem lexemes_integer (value : Int64) :
    lexemes (integer value :: ps) = .integer value :: lexemes ps := rfl

@[simp] theorem lexemes_quoted (value : String) :
    lexemes (quoted value :: ps) = .text value :: lexemes ps := rfl

@[simp] theorem lexemes_symbol (mark : Symbol) :
    lexemes (symbol mark :: ps) = .symbol mark :: lexemes ps := rfl

@[simp] theorem lexemes_space : lexemes (space :: ps) = lexemes ps := rfl

@[simp] theorem lexemes_newline : lexemes (newline :: ps) = lexemes ps := rfl

@[simp] theorem lexemes_indent : lexemes (indent :: ps) = lexemes ps := rfl

@[simp] theorem lexemes_append : lexemes (ps ++ qs) = lexemes ps ++ lexemes qs :=
  List.filterMap_append

theorem lexemes_flatten {pss : List (List Piece)} : lexemes pss.flatten = pss.flatMap lexemes := by
  induction pss with
  | nil => rfl
  | cons ps pss ih => rw [List.flatten_cons, lexemes_append, ih, List.flatMap_cons]

variable {α β : Type} {item : Phrase β} {f : α → List Piece} {as : List α}

theorem many_flatMap_map {g : α → β} (h : ∀ a ∈ as, item (lexemes (f a)) (g a)) :
    Many item (lexemes (as.flatMap f)) (as.map g) := by
  induction as with
  | nil => exact .nil
  | cons a as ih =>
    rw [List.forall_mem_cons] at h
    rw [List.flatMap_cons, lexemes_append]
    exact .cons h.1 (ih h.2)

theorem many_flatMap {item : Phrase α} (h : ∀ a ∈ as, item (lexemes (f a)) a) :
    Many item (lexemes (as.flatMap f)) as := by
  have hmap := many_flatMap_map (g := id) h
  rwa [List.map_id] at hmap

/-! ### Layouts derive -/

theorem ofWord_name (b : Wire.Builtin) : TypeName.ofWord b.name = .builtin b := by
  cases b <;> decide

theorem isTypeName_lexemes {t : TypeName} (h : t.isWellFormed) :
    IsTypeName (lexemes (typeName t)) t := by
  match t, h with
  | .builtin b, _ =>
    have hplain := IsTypeName.plain b.name
    rwa [ofWord_name] at hplain
  | .named ⟨some qualifier, name⟩, _ => exact .qualified qualifier name
  | .named ⟨none, name⟩, h =>
    simp only [TypeName.isWellFormed, Bool.and_eq_true, Option.isNone_iff_eq_none] at h
    have hplain := IsTypeName.plain name
    rwa [TypeName.ofWord, h.2] at hplain

theorem isType_lexemes {t : Listed TypeName} (h : t.leaf.isWellFormed) :
    IsType (lexemes (type t)) t := by
  obtain ⟨depth, leaf⟩ := t
  rw [type]
  induction depth with
  | zero => exact .leaf (isTypeName_lexemes h)
  | succ depth ih => exact .list (ih h)

theorem isParameter_lexemes {p : Parameter TypeName} (h : p.isWellFormed) :
    IsParameter (lexemes (parameter p)) p := by
  rw [Parameter.isWellFormed, Bool.and_eq_true] at h
  exact .mk p.name (isType_lexemes h.2)

theorem flatten_intersperse_cons {sep : List Piece} {pss : List (List Piece)} :
    ((ps :: pss).intersperse sep).flatten = ps ++ pss.flatMap (sep ++ ·) := by
  induction pss generalizing ps with
  | nil => simp
  | cons qs pss ih =>
    rw [List.intersperse_cons_cons, List.flatten_cons, List.flatten_cons, ih, List.flatMap_cons,
      List.append_assoc]

theorem isParameters_lexemes {ps : List (Parameter TypeName)} (h : ps.all Parameter.isWellFormed) :
    IsParameters (lexemes (parameters ps)) ps := by
  cases ps with
  | nil => exact .none
  | cons p ps =>
    simp only [List.all_cons, Bool.and_eq_true, List.all_eq_true] at h
    have hothers : Many (Behind .comma IsParameter)
        (lexemes (ps.flatMap fun p => [symbol .comma, space] ++ parameter p)) ps :=
      many_flatMap fun q hq => .mk (isParameter_lexemes (h.2 q hq))
    have hall := IsParameters.some (isParameter_lexemes h.1) hothers
    rw [parameters, List.map_cons, flatten_intersperse_cons, List.flatMap_map]
    simpa using hall

theorem isEnumValue_lexemes (v : EnumValue) : IsEnumValue (lexemes (enumValue v)) v :=
  .mk v.name v.number

theorem isMessageField_lexemes {f : Field TypeName Int64} (h : f.isWellFormed) :
    IsMessageField (lexemes (field f)) f := by
  rw [Field.isWellFormed, Bool.and_eq_true] at h
  have hfield := IsMessageField.mk f.name (isType_lexemes h.2) f.tag
  simpa [field] using hfield

theorem isMethod_lexemes {m : Method TypeName} (h : m.isWellFormed) :
    IsMethod (lexemes (method m)) m := by
  simp only [Method.isWellFormed, Bool.and_eq_true] at h
  obtain ⟨⟨-, hargs⟩, hresults⟩ := h
  obtain ⟨name, args, results⟩ := m
  by_cases hnone : results = []
  · subst hnone
    simpa [method] using IsMethod.plain name (isParameters_lexemes hargs)
  · have hmethod := IsMethod.returning name (isParameters_lexemes hargs)
      (isParameters_lexemes hresults)
    simpa [method, hnone] using hmethod

theorem isBlock_lexemes {item : Phrase α} (h : ∀ a ∈ as, item (lexemes (f a)) a) :
    IsBlock item (.symbol .openBrace :: lexemes ((as.map f).flatMap entry) ++ [.symbol .closeBrace])
      as := by
  rw [List.flatMap_map]
  refine .mk (many_flatMap fun a ha => ?_)
  have hentry : Before .semicolon item _ a := .mk (h a ha)
  simpa [entry] using hentry

theorem isDefinition_lexemes {d : Definition} (h : d.isWellFormed) :
    IsDefinition (lexemes (definition d)) d := by
  obtain ⟨name, body⟩ := d
  simp only [Definition.isWellFormed, Bool.and_eq_true] at h
  obtain ⟨-, hbody⟩ := h
  cases body <;> simp only [Body.isWellFormed, List.all_eq_true] at hbody
  case enum values =>
    have hdefinition := IsDefinition.enum name
      (isBlock_lexemes fun v (_ : v ∈ values) => isEnumValue_lexemes v)
    simpa [definition, block] using hdefinition
  case message fields =>
    have hdefinition := IsDefinition.message name
      (isBlock_lexemes fun f hf => isMessageField_lexemes (hbody f hf))
    simpa [definition, block] using hdefinition
  case struct fields =>
    have hdefinition := IsDefinition.struct name
      (isBlock_lexemes fun f hf => isParameter_lexemes (hbody f hf))
    simpa [definition, block] using hdefinition
  case service methods =>
    have hdefinition := IsDefinition.service name
      (isBlock_lexemes fun m hm => isMethod_lexemes (hbody m hm))
    simpa [definition, block] using hdefinition

theorem isImportSpec_lexemes (i : Import) : IsImportSpec (lexemes (importSpec i)) i := by
  obtain ⟨_ | name, path⟩ := i
  · exact .plain path
  · exact .named name path

/-- What a file declares, in the order of its canonical layout. -/
def declarations (f : SchemaFile) : List Parser.Declaration :=
  (if f.imports = [] then [] else [.imports f.imports]) ++ f.options.map .option
    ++ f.definitions.map .definition

theorem gather_declarations (f : SchemaFile) : gather (declarations f) = f := by
  obtain ⟨imports, options, definitions⟩ := f
  have hdefinitions : gather (definitions.map .definition) = ⟨[], [], definitions⟩ := by
    induction definitions with
    | nil => rfl
    | cons d ds ih => rw [List.map_cons, gather_definition_cons, ih]
  have hoptions : gather (options.map .option ++ definitions.map .definition)
      = ⟨[], options, definitions⟩ := by
    induction options with
    | nil => exact hdefinitions
    | cons o os ih => rw [List.map_cons, List.cons_append, gather_option_cons, ih]
  rw [declarations, List.append_assoc]
  by_cases hnone : imports = []
  · rw [if_pos hnone, List.nil_append, hoptions, hnone]
  · rw [if_neg hnone, List.singleton_append, gather_imports_cons, hoptions, List.append_nil]

theorem lexemes_sections {pss : List (List Piece)} :
    lexemes (pss.intersperse [newline]).flatten = pss.flatMap lexemes := by
  cases pss with
  | nil => rfl
  | cons ps pss =>
    rw [flatten_intersperse_cons, lexemes_append, List.flatMap, lexemes_flatten, List.flatMap_map,
      List.flatMap_cons]
    simp

theorem many_importSection {is : List Import} :
    Many IsDeclaration ((importSection is).flatMap lexemes)
      (if is = [] then [] else [.imports is]) := by
  rw [importSection]
  split
  · exact .nil
  · have hspecs := IsImports.group (many_flatMap fun i (_ : i ∈ is) => isImportSpec_lexemes i)
    have hsection := Many.cons (IsDeclaration.imports hspecs) .nil
    simpa using hsection

theorem many_optionSection {os : List Setting} :
    Many IsDeclaration ((optionSection os).flatMap lexemes) (os.map .option) := by
  rw [optionSection]
  split
  · next hnone => subst hnone; exact .nil
  · rw [List.flatMap_singleton]
    exact many_flatMap_map fun o _ => .option (.mk o.name o.value)

theorem many_definitions {ds : List Definition} (h : ds.all Definition.isWellFormed) :
    Many IsDeclaration ((ds.map definition).flatMap lexemes) (ds.map .definition) := by
  have hdefinitions : Many IsDeclaration (lexemes (ds.flatMap definition)) (ds.map .definition) :=
    many_flatMap_map fun d hd => .definition (isDefinition_lexemes (List.all_eq_true.1 h d hd))
  rwa [List.flatMap, lexemes_flatten] at hdefinitions

/-- **The layout of a well-formed file derives it.** -/
theorem isFile_lexemes {f : SchemaFile} (h : f.WellFormed) : IsFile (lexemes (file f)) f := by
  have hfile : Many IsDeclaration (lexemes (file f)) (declarations f) := by
    rw [file, lexemes_sections, sections, List.flatMap_append, List.flatMap_append]
    exact (many_importSection.append many_optionSection).append (many_definitions h.definitions)
  have hgather := IsFile.mk hfile
  rwa [gather_declarations] at hgather

end Layout

/-! ### Formatting -/

variable {f : SchemaFile} {source : String}

theorem parse_text (h : f.WellFormed) : parse f.text = .ok f := by
  obtain ⟨hlexemes, stop, hending⟩ :=
    Layout.lexemes_readFrom_text (Layout.isSpaced_file h) Position.start
  have htext : readTokens f.text = readFrom ⟨.start, Layout.text (Layout.file f)⟩ := by
    rw [readTokens, SchemaFile.text, String.toList_ofList]
  rw [parse_eq_ok_iff, htext]
  refine ⟨⟨stop, hending⟩, ?_⟩
  rw [hlexemes]
  exact Layout.isFile_lexemes h

theorem wellFormed_of_parse (h : parse source = .ok f) : f.WellFormed := by
  refine (parse_eq_ok_iff.1 h).2.wellFormed ?_
  simp only [List.all_map, List.all_eq_true]
  exact fun t ht => isValid_of_mem_readFrom ht

/-- **Layout and parsing are inverse.** The canonical text of every tree whose names can be written
and whose references without a qualifier name no builtin type is parsed back to that tree, whatever
its quoted texts hold. Every tree that is parsed is of this kind, so formatting keeps what a text
declares, and formatting the result once more changes nothing. -/
theorem parse_undoes_layout :
    (∀ f : SchemaFile, f.WellFormed → parse f.text = .ok f)
      ∧ ∀ (source : String) (f : SchemaFile), parse source = .ok f →
          f.WellFormed ∧ ∃ text, format source = .ok text ∧ parse text = .ok f
            ∧ format text = .ok text := by
  refine ⟨fun f h => parse_text h, fun source f h => ?_⟩
  have hwell := wellFormed_of_parse h
  have hback := parse_text hwell
  refine ⟨hwell, f.text, by rw [format, h]; rfl, hback, by rw [format, hback]; rfl⟩

/-- A tree with a keyword for a name, a qualified reference that is spelled like a builtin type,
escapes, a negative number and the lowest tag. -/
def drawing : SchemaFile where
  imports := [⟨some "geo", "shapes/geo"⟩, ⟨none, "of \"quotes\"\n"⟩]
  options := [⟨"rust_module", "crate::été\t\\ // no comment"⟩]
  definitions := [
    ⟨"enum", .enum [⟨"NONE", 0⟩, ⟨"LOW", -2147483648⟩]⟩,
    ⟨"Pair", .struct [⟨"key", ⟨0, .builtin .uint32⟩⟩]⟩,
    ⟨"Scene", .message [⟨"points", ⟨2, .named ⟨some "geo", "string"⟩⟩, -9223372036854775808⟩,
      ⟨"mode", ⟨0, .named ⟨none, "enum"⟩⟩, 1⟩]⟩,
    ⟨"Render", .service [⟨"Draw", [⟨"s", ⟨0, .named ⟨none, "Scene"⟩⟩⟩, ⟨"n", ⟨1, .builtin .byte⟩⟩],
      [⟨"ok", ⟨0, .builtin .bool⟩⟩]⟩, ⟨"Reset", [], []⟩]⟩]

/-- A tree that is written below with comments, an escape and parentheses around no results. -/
def resetting : SchemaFile where
  imports := []
  options := [⟨"note", "\t"⟩]
  definitions := [⟨"Timer", .service [⟨"Reset", [], []⟩]⟩]

/-- A text of that tree which is not the canonical one. -/
def resettingSource : String :=
  "/* one */ service Timer { Reset()(); } option note=\"\\t\"; // two"

theorem parse_undoes_layout_drawing :
    (drawing.WellFormed ∧ parse drawing.text = .ok drawing)
      ∧ parse resettingSource = .ok resetting ∧ resetting.WellFormed
      ∧ ∃ text, format resettingSource = .ok text ∧ parse text = .ok resetting
          ∧ format text = .ok text := by
  have hwell : drawing.WellFormed := ⟨by decide, by decide, by decide⟩
  have hparse : parse resettingSource = .ok resetting := by cbv
  exact ⟨⟨hwell, parse_undoes_layout.1 drawing hwell⟩, hparse,
    parse_undoes_layout.2 resettingSource resetting hparse⟩

end Backwire.Schema
