import Backwire.Proofs.Schema.Lexing

/-!
# A layout is read back as its lexemes

A layout is spaced if its lexemes can be written, its blanks are blank, and no word or integer
stands right behind another. The tokens of the text of a spaced layout are its lexemes
(`lexemes_readFrom_text`), and the layout of a well-formed file is spaced (`isSpaced_file`). Only
words and integers have to be kept apart, so a layout may be cut before any other piece
(`isSpaced_append`), and behind one (`IsClosed`).
-/

namespace Backwire.Schema.Layout

open Piece

variable {ps qs : List Piece}

/-- The lexeme of a piece that is one. -/
def Piece.lexeme? : Piece → Option Lexeme
  | lexeme l => some l
  | blank _ => none

/-- The lexemes of a layout. -/
def lexemes (ps : List Piece) : List Lexeme := ps.filterMap Piece.lexeme?

/-- Whether what follows a piece could continue it. -/
def Piece.isOpen : Piece → Bool
  | lexeme l => l.isOpen
  | blank _ => false

/-- Whether a piece is a lexeme that can be written, or one or more blanks. -/
def Piece.isSound : Piece → Bool
  | lexeme l => l.isValid
  | blank cs => !cs.isEmpty && cs.all Text.isBlank

/-- **Every piece is sound, and none continues the one before it.** -/
def isSpaced : List Piece → Bool
  | [] => true
  | p :: ps => p.isSound && !(p.isOpen && ps.head?.any Piece.isOpen) && isSpaced ps

/-! ### The text of a spaced layout -/

theorem ends_text (hs : isSpaced ps) (ho : ps.head?.any Piece.isOpen = false) : ends (text ps) := by
  cases ps with
  | nil => rfl
  | cons p ps =>
    simp only [isSpaced, Bool.and_eq_true] at hs
    cases p with
    | lexeme l => exact Lexeme.ends_written ho (text ps)
    | blank cs =>
      obtain ⟨⟨hblank, -⟩, -⟩ := hs
      cases cs with
      | nil => cases hblank
      | cons c cs =>
        simp only [Piece.isSound, List.all_cons, Bool.and_eq_true] at hblank
        simp [text, Piece.text, ends, not_isWordRest_of_isBlank hblank.2.1]

/-- The text of a spaced layout is read to its end, and its tokens are the lexemes of its
pieces. -/
theorem lexemes_readFrom_text (hs : isSpaced ps) (p : Position) :
    (readFrom ⟨p, text ps⟩).tokens.map Token.lexeme = lexemes ps
      ∧ ∃ stop, (readFrom ⟨p, text ps⟩).ending = .ok stop := by
  induction ps generalizing p with
  | nil =>
    have hend : nextToken ⟨p, text []⟩ = .ok (.inl p) := rfl
    rw [readFrom_of_end hend]
    exact ⟨rfl, p, rfl⟩
  | cons q ps ih =>
    simp only [isSpaced, Bool.and_eq_true, Bool.not_eq_true', Bool.and_eq_false_iff] at hs
    obtain ⟨⟨hq, hopen⟩, hps⟩ := hs
    cases q with
    | lexeme l =>
      have hends : l.isOpen → ends (text ps) := fun ho =>
        ends_text hps (hopen.resolve_left (by simp [Piece.isOpen, ho]))
      have hnext := nextToken_written hq hends p
      obtain ⟨htokens, hending⟩ := ih hps (p.after l.written)
      rw [show text (.lexeme l :: ps) = l.written ++ text ps from rfl, readFrom_of_token hnext]
      exact ⟨congrArg (l :: ·) htokens, hending⟩
    | blank cs =>
      simp only [Piece.isSound, Bool.and_eq_true, List.all_eq_true] at hq
      rw [show text (.blank cs :: ps) = cs ++ text ps from rfl,
        readFrom_congr (nextToken_blanks hq.2 p)]
      exact ih hps (p.after cs)

/-! ### The pieces of layouts -/

@[simp] theorem isOpen_word (name : String) : (word name).isOpen = true := rfl
@[simp] theorem isOpen_integer (value : Int64) : (integer value).isOpen = true := rfl
@[simp] theorem isOpen_quoted (value : String) : (quoted value).isOpen = false := rfl
@[simp] theorem isOpen_symbol (mark : Symbol) : (symbol mark).isOpen = false := rfl
@[simp] theorem isOpen_space : space.isOpen = false := rfl
@[simp] theorem isOpen_newline : newline.isOpen = false := rfl
@[simp] theorem isOpen_indent : indent.isOpen = false := rfl

@[simp] theorem isSound_word (name : String) : (word name).isSound = isName name := rfl
@[simp] theorem isSound_integer (value : Int64) : (integer value).isSound = true := rfl
@[simp] theorem isSound_quoted (value : String) : (quoted value).isSound = true := rfl
@[simp] theorem isSound_symbol (mark : Symbol) : (symbol mark).isSound = true := rfl
@[simp] theorem isSound_space : space.isSound = true := rfl
@[simp] theorem isSound_newline : newline.isSound = true := rfl
@[simp] theorem isSound_indent : indent.isSound = true := rfl

@[simp] theorem isSpaced_nil : isSpaced [] = true := rfl

@[simp] theorem isSpaced_cons (p : Piece) : isSpaced (p :: ps)
    = (p.isSound && !(p.isOpen && ps.head?.any Piece.isOpen) && isSpaced ps) := rfl

/-- A layout may be cut before a piece that continues nothing. -/
theorem isSpaced_append (hq : qs.head?.any Piece.isOpen = false) :
    isSpaced (ps ++ qs) = (isSpaced ps && isSpaced qs) := by
  induction ps with
  | nil => rfl
  | cons p ps ih =>
    have hhead : (ps ++ qs).head?.any Piece.isOpen = ps.head?.any Piece.isOpen := by
      cases ps <;> simp [hq]
    simp only [List.cons_append, isSpaced_cons, hhead, ih, Bool.and_assoc]

/-- A layout is closed if anything may stand behind it. -/
def IsClosed (ps : List Piece) : Prop := ∀ qs, isSpaced (ps ++ qs) = isSpaced qs

theorem IsClosed.flatten {pss : List (List Piece)} (h : ∀ ps ∈ pss, IsClosed ps) :
    IsClosed pss.flatten := by
  induction pss with
  | nil => exact fun _ => rfl
  | cons ps pss ih =>
    rw [List.forall_mem_cons] at h
    intro qs
    rw [List.flatten_cons, List.append_assoc, h.1, ih h.2]

theorem IsClosed.intersperse {sep : List Piece} {pss : List (List Piece)} (hsep : IsClosed sep)
    (h : ∀ ps ∈ pss, IsClosed ps) : ∀ ps ∈ pss.intersperse sep, IsClosed ps := by
  induction pss with
  | nil => simp
  | cons ps pss ih =>
    rw [List.forall_mem_cons] at h
    cases pss with
    | nil => simpa using h.1
    | cons qs pss =>
      rw [List.intersperse_cons_cons, List.forall_mem_cons, List.forall_mem_cons]
      exact ⟨h.1, hsep, ih h.2⟩

/-! ### The layout of a well-formed file -/

theorem isName_builtin (b : Wire.Builtin) : isName b.name := by cases b <;> decide

theorem isSpaced_typeName {t : TypeName} (h : t.isWellFormed) : isSpaced (typeName t) := by
  match t, h with
  | .builtin b, _ => simp [typeName, isName_builtin]
  | .named ⟨some _, _⟩, h => simpa [typeName, reference, TypeName.isWellFormed] using h
  | .named ⟨none, _⟩, h => simp_all [typeName, reference, TypeName.isWellFormed]

theorem isSpaced_type {t : Listed TypeName} (h : t.leaf.isWellFormed) : isSpaced (type t) := by
  obtain ⟨depth, leaf⟩ := t
  rw [type]
  induction depth with
  | zero => exact isSpaced_typeName h
  | succ depth ih => simpa [List.replicate_succ] using ih h

theorem isSpaced_parameter {p : Parameter TypeName} (h : p.isWellFormed) :
    isSpaced (parameter p) := by
  rw [Parameter.isWellFormed, Bool.and_eq_true] at h
  simp [parameter, h.1, isSpaced_type h.2]

theorem isClosed_parameters {ps : List (Parameter TypeName)}
    (h : ps.all Parameter.isWellFormed) : IsClosed (parameters ps) := by
  have hinner : isSpaced ((ps.map parameter).intersperse [symbol .comma, space]).flatten := by
    induction ps with
    | nil => rfl
    | cons p ps ih =>
      simp only [List.all_cons, Bool.and_eq_true] at h
      cases ps with
      | nil => simpa using isSpaced_parameter h.1
      | cons q ps =>
        have hothers := ih h.2
        simp only [List.map_cons, List.intersperse_cons_cons, List.flatten_cons] at hothers ⊢
        rw [isSpaced_append rfl]
        simp [isSpaced_parameter h.1, hothers]
  intro qs
  rw [parameters, List.append_assoc, isSpaced_append rfl]
  simp [hinner]

theorem isClosed_entry (h : isSpaced ps) : IsClosed (entry ps) := by
  intro qs
  rw [entry, List.append_assoc, isSpaced_append rfl]
  simp [h]

theorem isClosed_block {keyword name : String} {entries : List (List Piece)}
    (hkeyword : isName keyword) (hname : isName name) (h : ∀ e ∈ entries, isSpaced e) :
    IsClosed (block keyword name entries) := by
  have hentries : IsClosed (entries.flatMap entry) :=
    IsClosed.flatten fun e he => by
      obtain ⟨ps, hps, rfl⟩ := List.mem_map.1 he
      exact isClosed_entry (h ps hps)
  intro qs
  rw [block, List.append_assoc, List.append_assoc]
  simp [hkeyword, hname, hentries _]

theorem isSpaced_enumValue {v : EnumValue} (h : isName v.name) : isSpaced (enumValue v) := by
  simp [enumValue, h]

theorem isSpaced_field {f : Field TypeName Int64} (h : f.isWellFormed) : isSpaced (field f) := by
  rw [Field.isWellFormed, Bool.and_eq_true] at h
  rw [field, isSpaced_append rfl]
  simp [h.1, isSpaced_type h.2]

theorem isSpaced_method {m : Method TypeName} (h : m.isWellFormed) : isSpaced (method m) := by
  simp only [Method.isWellFormed, Bool.and_eq_true] at h
  obtain ⟨⟨hname, hargs⟩, hresults⟩ := h
  have hrest : isSpaced (if m.results = [] then [] else space :: parameters m.results) := by
    split
    · rfl
    · simpa using isClosed_parameters hresults []
  rw [method, List.cons_append, isSpaced_cons, isClosed_parameters hargs, hrest]
  simp [hname, parameters]

theorem isClosed_definition {d : Definition} (h : d.isWellFormed) : IsClosed (definition d) := by
  obtain ⟨name, body⟩ := d
  simp only [Definition.isWellFormed, Bool.and_eq_true] at h
  obtain ⟨hname, hbody⟩ := h
  cases body <;> simp only [Body.isWellFormed, List.all_eq_true] at hbody <;>
    refine isClosed_block (by decide) hname fun e he => ?_ <;>
    obtain ⟨a, ha, rfl⟩ := List.mem_map.1 he
  case enum => exact isSpaced_enumValue (hbody a ha)
  case message => exact isSpaced_field (hbody a ha)
  case struct => exact isSpaced_parameter (hbody a ha)
  case service => exact isSpaced_method (hbody a ha)

theorem isClosed_importSpec {i : Import} (h : i.isWellFormed) : IsClosed (importSpec i) := by
  intro qs
  cases halias : i.alias? with
  | none => simp [importSpec, halias]
  | some name =>
    rw [Import.isWellFormed, halias] at h
    simp_all [importSpec]

theorem isClosed_setting {o : Setting} (h : isName o.name) : IsClosed (setting o) := by
  intro qs
  have hkeyword : isName "option" = true := by decide
  simp [setting, h, hkeyword]

theorem isClosed_importSection {is : List Import} (h : is.all Import.isWellFormed) :
    ∀ ps ∈ importSection is, IsClosed ps := by
  intro ps hps
  rw [importSection] at hps
  split at hps
  · cases hps
  · rw [List.mem_singleton] at hps
    subst hps
    have hspecs : IsClosed (is.flatMap importSpec) := IsClosed.flatten fun ps hps => by
      obtain ⟨i, hi, rfl⟩ := List.mem_map.1 hps
      exact isClosed_importSpec (List.all_eq_true.1 h i hi)
    have hkeyword : isName "import" = true := by decide
    intro qs
    simp only [List.append_assoc]
    simp [hkeyword, hspecs _]

theorem isClosed_optionSection {os : List Setting} (h : os.all fun o => isName o.name) :
    ∀ ps ∈ optionSection os, IsClosed ps := by
  intro ps hps
  rw [optionSection] at hps
  split at hps
  · cases hps
  · rw [List.mem_singleton] at hps
    subst hps
    refine IsClosed.flatten fun ps hps => ?_
    obtain ⟨o, ho, rfl⟩ := List.mem_map.1 hps
    exact isClosed_setting (List.all_eq_true.1 h o ho)

/-- **The layout of a well-formed file is spaced.** -/
theorem isSpaced_file {f : SchemaFile} (h : f.WellFormed) : isSpaced (file f) := by
  have hsections : ∀ ps ∈ sections f, IsClosed ps := by
    intro ps hps
    simp only [sections, List.mem_append] at hps
    obtain (hps | hps) | hps := hps
    · exact isClosed_importSection h.imports ps hps
    · exact isClosed_optionSection h.options ps hps
    · obtain ⟨d, hd, rfl⟩ := List.mem_map.1 hps
      exact isClosed_definition (List.all_eq_true.1 h.definitions d hd)
  have hnewline : IsClosed [newline] := fun _ => by simp
  have hfile : IsClosed (file f) := IsClosed.flatten (IsClosed.intersperse hnewline hsections)
  simpa using hfile []

end Backwire.Schema.Layout
