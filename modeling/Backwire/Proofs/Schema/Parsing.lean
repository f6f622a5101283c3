import Mathlib.Tactic.SplitIfs
import Backwire.Proofs.Schema.Grammar

/-!
# The parser follows the grammar

A reader reads a kind of phrase if what it has passed when it succeeds is such a phrase, and if it
reads every such phrase that what follows does not continue (`Reads`). Of the phrases of the
grammar only a type may be continued, by a dot, and a method without results, by parentheses;
both stand before other marks. Where phrases are repeated, their first lexeme tells them from what
ends the repetition. So a text is parsed exactly if its lexemes derive (`parse_eq_ok_iff`).
-/

namespace Backwire.Schema

variable {s s' s'' : TokenStream} {l : Lexeme} {ls ms : List Lexeme}

/-- **A reader at `s` has the lexemes `ls` before it, and behind them is at `s'`.** -/
inductive TokenStream.Passes : TokenStream → List Lexeme → TokenStream → Prop
  | nil (s : TokenStream) : Passes s [] s
  | cons {l : Lexeme} {p : Position} {ts : List Token} {stop : Position} {ls : List Lexeme}
      {s' : TokenStream} (others : Passes ⟨ts, stop⟩ ls s') :
      Passes ⟨⟨l, p⟩ :: ts, stop⟩ (l :: ls) s'

/-- The next lexeme, if the file does not end. -/
def TokenStream.next (s : TokenStream) : Option Lexeme := s.tokens.head?.map Token.lexeme

namespace TokenStream.Passes

theorem nil_iff : s.Passes [] s' ↔ s = s' := by
  constructor
  · intro h; cases h; rfl
  · rintro rfl; exact .nil s

theorem append (h : s.Passes ls s') (h' : s'.Passes ms s'') : s.Passes (ls ++ ms) s'' := by
  induction h with
  | nil => exact h'
  | cons _ ih => exact .cons (ih h')

theorem append_iff : s.Passes (ls ++ ms) s'' ↔ ∃ s', s.Passes ls s' ∧ s'.Passes ms s'' := by
  constructor
  · intro h
    induction ls generalizing s with
    | nil => exact ⟨s, .nil s, h⟩
    | cons l ls ih =>
      cases h with
      | cons others =>
        obtain ⟨s', hs', h'⟩ := ih others
        exact ⟨s', .cons hs', h'⟩
  · rintro ⟨s', h, h'⟩
    exact h.append h'

theorem cons_iff : s.Passes (l :: ls) s'' ↔ ∃ s', s.Passes [l] s' ∧ s'.Passes ls s'' := by
  rw [← List.singleton_append, append_iff]

theorem next_eq (h : s.Passes (l :: ls) s') : s.next = some l := by cases h; rfl

theorem length_eq (h : s.Passes ls s') : s.tokens.length = ls.length + s'.tokens.length := by
  induction h with
  | nil => simp
  | cons _ ih => simp only [List.length_cons] at ih ⊢; omega

end TokenStream.Passes

namespace Parser

open Phrases

variable {α β : Type} {a : α} {b : β} {as : List α}

theorem bind_ok {p : Parser α} {f : α → Parser β} :
    (p >>= f) s = .ok (b, s'') ↔ ∃ a s', p s = .ok (a, s') ∧ f a s' = .ok (b, s'') := by
  show (p s >>= fun r => f r.1 r.2) = .ok (b, s'') ↔ _
  cases p s with
  | error e => simp [bind, Except.bind]
  | ok r =>
    constructor
    · exact fun h => ⟨r.1, r.2, rfl, h⟩
    · rintro ⟨a, s', hr, h⟩
      cases hr
      exact h

theorem pure_ok {a' : α} : (pure a : Parser α) s = .ok (a', s') ↔ a = a' ∧ s = s' := by
  show Except.ok (a, s) = .ok (a', s') ↔ _
  simp

/-! ### Single tokens -/

theorem take_ok {wanted : Wanted} {form : Lexeme → Option α} :
    take wanted form s = .ok (a, s') ↔ ∃ l, form l = some a ∧ s.Passes [l] s' := by
  obtain ⟨ts, stop⟩ := s
  constructor
  · intro h
    cases ts with
    | nil => cases h
    | cons t ts =>
      simp only [take] at h
      split at h
      · next hform => cases h; exact ⟨t.lexeme, hform, .cons (.nil _)⟩
      · cases h
  · rintro ⟨l, hform, hpass⟩
    cases hpass with
    | cons others => cases others; simp [take, hform]

theorem word_ok {wanted : Wanted} {name : String} :
    word wanted s = .ok (name, s') ↔ s.Passes [.word name] s' := by
  have hform (l : Lexeme) : l.word? = some name ↔ l = .word name := by
    cases l <;> simp [Lexeme.word?]
  simp [word, take_ok, hform]

theorem text_ok {wanted : Wanted} {value : String} :
    text wanted s = .ok (value, s') ↔ s.Passes [.text value] s' := by
  have hform (l : Lexeme) : l.text? = some value ↔ l = .text value := by
    cases l <;> simp [Lexeme.text?]
  simp [text, take_ok, hform]

theorem integer_ok {wanted : Wanted} {value : Int64} :
    integer wanted s = .ok (value, s') ↔ s.Passes [.integer value] s' := by
  have hform (l : Lexeme) : l.integer? = some value ↔ l = .integer value := by
    cases l <;> simp [Lexeme.integer?]
  simp [integer, take_ok, hform]

theorem symbol_ok {mark : Symbol} {u : Unit} :
    symbol mark s = .ok (u, s') ↔ s.Passes [.symbol mark] s' := by
  simp [symbol, take_ok]

theorem behind?_eq_some_iff {mark : Symbol} :
    behind? mark s = some s' ↔ s.Passes [.symbol mark] s' := by
  obtain ⟨ts, stop⟩ := s
  constructor
  · intro h
    cases ts with
    | nil => cases h
    | cons t ts =>
      simp only [behind?] at h
      split at h
      · next hmark => cases h; rw [← hmark]; exact .cons (.nil _)
      · cases h
  · intro h
    cases h with
    | cons others => cases others; simp [behind?]

theorem behind?_eq_none_iff {mark : Symbol} :
    behind? mark s = none ↔ s.next ≠ some (.symbol mark) := by
  obtain ⟨ts, stop⟩ := s
  cases ts with
  | nil => simp [behind?, TokenStream.next]
  | cons t ts => simp [behind?, TokenStream.next]

theorem optional_ok {mark : Symbol} {found : Bool} :
    optional mark s = .ok (found, s') ↔
      (found = true ∧ s.Passes [.symbol mark] s')
        ∨ (found = false ∧ s' = s ∧ s.next ≠ some (.symbol mark)) := by
  rw [← behind?_eq_some_iff, ← behind?_eq_none_iff]
  cases h : behind? mark s with
  | none => simp [optional, h, eq_comm]
  | some s₁ => simp [optional, h, eq_comm]

/-! ### Phrases -/

/-- **A reader reads a kind of phrase**: what it has passed is such a phrase, and it reads every
such phrase that is followed by what `stops` it. -/
structure Reads (p : Parser α) (phrase : Phrase α) (stops : Option Lexeme → Prop) : Prop where
  sound : ∀ {s a s'}, p s = .ok (a, s') → ∃ ls, s.Passes ls s' ∧ phrase ls a
  complete : ∀ {s ls a s'}, s.Passes ls s' → phrase ls a → stops s'.next → p s = .ok (a, s')

/-- Anything stops a reader that knows where its phrase ends. -/
abbrev Anything : Option Lexeme → Prop := fun _ => True

section Repetition

variable {ended : TokenStream → Option TokenStream} {item : Parser α} {phrase : Phrase α}
  {first : Lexeme → Prop} {stops : Option Lexeme → Prop} {budget : List Token}

/-- Items that are read are phrases, up to where the end is found. The budget does not run out,
since every item takes a token. -/
theorem manyWithin_sound (hitem : Reads item phrase stops) (hfirst : BeginsWith first phrase)
    (hbudget : s.tokens.length ≤ budget.length)
    (h : manyWithin ended item budget s = .ok (as, s')) :
    ∃ ls s₁, s.Passes ls s₁ ∧ Many phrase ls as ∧ ended s₁ = some s' := by
  induction budget generalizing s as with
  | nil =>
    unfold manyWithin at h
    split at h
    · next hend => cases h; exact ⟨[], s, .nil s, .nil, hend⟩
    · split at h
      · cases h
      · next a s₁ hread =>
        obtain ⟨ls, hpass, hphrase⟩ := hitem.sound hread
        obtain ⟨l, ms, rfl, -⟩ := hfirst hphrase
        have hlength := hpass.length_eq
        simp only [List.length_cons, List.length_nil] at hlength hbudget
        omega
  | cons t budget ih =>
    unfold manyWithin at h
    dsimp only at h
    split at h
    · next hend => cases h; exact ⟨[], s, .nil s, .nil, hend⟩
    · split at h
      · cases h
      · next a s₁ hread =>
        split at h
        · cases h
        · next as s₂ hrest =>
          cases h
          obtain ⟨ls, hpass, hphrase⟩ := hitem.sound hread
          obtain ⟨l, ms, rfl, -⟩ := hfirst hphrase
          have hlength := hpass.length_eq
          simp only [List.length_cons] at hlength hbudget
          obtain ⟨ns, s₃, hothers, hmany, hend⟩ := ih (by omega) hrest
          exact ⟨_, s₃, hpass.append hothers, .cons hphrase hmany, hend⟩

/-- Items that stand one after another are read, if the end cannot be mistaken for an item. -/
theorem manyWithin_complete (hitem : Reads item phrase stops) (hfirst : BeginsWith first phrase)
    (hstart : ∀ {s l}, s.next = some l → first l → ended s = none)
    (hstops : ∀ {l}, first l → stops (some l)) {s₁ : TokenStream}
    (hend : ended s₁ = some s') (hfree : stops s₁.next) (hmany : Many phrase ls as)
    (hpass : s.Passes ls s₁) (hbudget : as.length ≤ budget.length) :
    manyWithin ended item budget s = .ok (as, s') := by
  induction hmany generalizing s budget with
  | nil =>
    obtain rfl := TokenStream.Passes.nil_iff.1 hpass
    unfold manyWithin
    simp only [hend]
  | @cons ls ms a as hphrase hothers ih =>
    obtain ⟨s₂, hitempass, hotherspass⟩ := TokenStream.Passes.append_iff.1 hpass
    obtain ⟨l, ns, rfl, hl⟩ := hfirst hphrase
    have hnext : stops s₂.next := by
      cases hothers with
      | nil => rwa [TokenStream.Passes.nil_iff.1 hotherspass]
      | cons hsecond =>
        obtain ⟨m, ns', rfl, hm⟩ := hfirst hsecond
        rw [TokenStream.Passes.next_eq hotherspass]
        exact hstops hm
    cases budget with
    | nil => cases hbudget
    | cons t budget =>
      have hrest := ih hotherspass (Nat.le_of_succ_le_succ hbudget)
      unfold manyWithin
      simp only [hstart hitempass.next_eq hl, hitem.complete hitempass hphrase hnext, hrest]

/-- There are no more items than lexemes. -/
theorem length_le_of_many (hfirst : BeginsWith first phrase) (h : Many phrase ls as) :
    as.length ≤ ls.length := by
  induction h with
  | nil => exact Nat.le_refl 0
  | cons hphrase _ ih =>
    obtain ⟨l, ms, rfl, -⟩ := hfirst hphrase
    simp only [List.length_cons, List.length_append]
    omega

/-- Items up to a symbol that begins none of them. -/
theorem reads_manyUntil {mark : Symbol} (hitem : Reads item phrase stops)
    (hfirst : BeginsWith first phrase) (hmark : ¬ first (.symbol mark))
    (hstops : ∀ {l}, first l → stops (some l)) (hend : stops (some (.symbol mark))) :
    Reads (manyUntil (behind? mark) item) (Before mark (Many phrase)) Anything where
  sound h := by
    obtain ⟨ls, s₁, hpass, hmany, hended⟩ := manyWithin_sound hitem hfirst (Nat.le_refl _) h
    exact ⟨_, hpass.append (behind?_eq_some_iff.1 hended), .mk hmany⟩
  complete := by
    rintro s _ as s' hpass ⟨hmany⟩ -
    obtain ⟨s₁, hitems, hclose⟩ := TokenStream.Passes.append_iff.1 hpass
    refine manyWithin_complete hitem hfirst ?_ hstops (behind?_eq_some_iff.2 hclose)
      (by rwa [hclose.next_eq]) hmany hitems ?_
    · intro s l hnext hl
      rw [behind?_eq_none_iff, hnext]
      rintro ⟨⟩
      exact hmark hl
    · have hlength := hitems.length_eq
      have hcount := length_le_of_many hfirst hmany
      omega

end Repetition

/-! ### Types -/

/-- So many list marks. -/
def marks : Nat → List Lexeme
  | 0 => []
  | depth + 1 => .symbol .openBracket :: .symbol .closeBracket :: marks depth

theorem isType_iff {t : Listed TypeName} :
    IsType ls t ↔ ∃ ms, ls = marks t.depth ++ ms ∧ IsTypeName ms t.leaf := by
  constructor
  · intro h
    induction h with
    | leaf name => exact ⟨_, rfl, name⟩
    | list _ ih =>
      obtain ⟨ms, rfl, hname⟩ := ih
      exact ⟨ms, rfl, hname⟩
  · obtain ⟨depth, leaf⟩ := t
    rintro ⟨ms, rfl, hname⟩
    induction depth with
    | zero => exact .leaf hname
    | succ depth ih => exact .list (ih hname)

theorem listMarksFrom_sound {stop : Position} {n m : Nat} {ts : List Token}
    (h : listMarksFrom stop n ts = .ok (m, s')) :
    ∃ k, m = n + k ∧ TokenStream.Passes ⟨ts, stop⟩ (marks k) s' := by
  fun_induction listMarksFrom stop n ts with
  | case1 => cases h
  | case2 n t hopen _ s head ts hclose ih =>
    obtain ⟨k, rfl, hpass⟩ := ih h
    obtain ⟨lexeme, p⟩ := t
    obtain rfl : lexeme = _ := hopen
    cases symbol_ok.1 hclose with
    | cons => exact ⟨k + 1, by omega, .cons (.cons hpass)⟩
  | case3 n t _ _ s hclose => cases symbol_ok.1 hclose
  | case4 => cases h; exact ⟨0, rfl, .nil _⟩
  | case5 => cases h; exact ⟨0, rfl, .nil _⟩

theorem listMarksFrom_complete {stop : Position} {n k : Nat} {ts : List Token}
    (hpass : TokenStream.Passes ⟨ts, stop⟩ (marks k) s')
    (hnext : s'.next ≠ some (.symbol .openBracket)) :
    listMarksFrom stop n ts = .ok (n + k, s') := by
  induction k generalizing n ts with
  | zero =>
    obtain rfl := TokenStream.Passes.nil_iff.1 hpass
    cases ts with
    | nil => rfl
    | cons t ts =>
      have hopen : t.lexeme ≠ .symbol .openBracket := fun h => hnext (congrArg some h)
      rw [listMarksFrom, if_neg hopen]
      rfl
  | succ k ih =>
    cases hpass with
    | cons others =>
      cases others with
      | cons others =>
        rw [listMarksFrom, if_pos rfl, symbol_ok (u := ()) |>.2 (.cons (.nil _))]
        have hrest := ih (n := n + 1) others
        rwa [Nat.add_assoc, Nat.add_comm 1] at hrest

theorem reads_typeName : Reads typeName IsTypeName (· ≠ some (.symbol .dot)) where
  sound h := by
    obtain ⟨first, s₁, hfirst, h₁⟩ := bind_ok.1 h
    obtain ⟨found, s₂, hfound, h₂⟩ := bind_ok.1 h₁
    obtain ⟨rfl, hdot⟩ | ⟨rfl, rfl, -⟩ := optional_ok.1 hfound
    · obtain ⟨name, s₃, hname, h₃⟩ := bind_ok.1 h₂
      obtain ⟨rfl, rfl⟩ := pure_ok.1 h₃
      exact ⟨_, (word_ok.1 hfirst).append (hdot.append (word_ok.1 hname)), .qualified first name⟩
    · obtain ⟨rfl, rfl⟩ := pure_ok.1 h₂
      exact ⟨_, word_ok.1 hfirst, .plain first⟩
  complete := by
    intro s ls a s' hpass h hstop
    cases h with
    | plain name =>
      refine bind_ok.2 ⟨name, s', word_ok.2 hpass, bind_ok.2 ⟨false, s', ?_, rfl⟩⟩
      exact optional_ok.2 (.inr ⟨rfl, rfl, hstop⟩)
    | qualified qualifier name =>
      obtain ⟨s₁, hqualifier, hpass⟩ := TokenStream.Passes.cons_iff.1 hpass
      obtain ⟨s₂, hdot, hname⟩ := TokenStream.Passes.cons_iff.1 hpass
      refine bind_ok.2 ⟨qualifier, s₁, word_ok.2 hqualifier, bind_ok.2 ⟨true, s₂, ?_, ?_⟩⟩
      · exact optional_ok.2 (.inl ⟨rfl, hdot⟩)
      · exact bind_ok.2 ⟨name, s', word_ok.2 hname, rfl⟩

theorem reads_type : Reads type IsType (· ≠ some (.symbol .dot)) where
  sound h := by
    obtain ⟨depth, s₁, hmarks, h₁⟩ := bind_ok.1 h
    obtain ⟨leaf, s₂, hname, h₂⟩ := bind_ok.1 h₁
    obtain ⟨rfl, rfl⟩ := pure_ok.1 h₂
    obtain ⟨k, rfl, hpass⟩ := listMarksFrom_sound hmarks
    obtain ⟨ls, hpass', hleaf⟩ := reads_typeName.sound hname
    rw [Nat.zero_add]
    exact ⟨_, hpass.append hpass', isType_iff.2 ⟨ls, rfl, hleaf⟩⟩
  complete := by
    rintro s ls ⟨depth, leaf⟩ s' hpass h hstop
    obtain ⟨ms, rfl, hleaf⟩ := isType_iff.1 h
    obtain ⟨s₁, hmarks, hname⟩ := TokenStream.Passes.append_iff.1 hpass
    have hnext : s₁.next ≠ some (.symbol .openBracket) := by
      obtain ⟨_, ns, rfl, name, rfl⟩ := isTypeName_beginsWith hleaf
      simp [hname.next_eq]
    refine bind_ok.2 ⟨depth, s₁, ?_, bind_ok.2 ⟨leaf, s', ?_, rfl⟩⟩
    · have := listMarksFrom_complete (n := 0) hmarks hnext
      rwa [Nat.zero_add] at this
    · exact reads_typeName.complete hname hleaf hstop

/-! ### Parameters -/

theorem reads_parameter (wanted : Wanted) :
    Reads (parameter wanted) IsParameter (· ≠ some (.symbol .dot)) where
  sound h := by
    obtain ⟨name, s₁, hname, h₁⟩ := bind_ok.1 h
    obtain ⟨type, s₂, htype, h₂⟩ := bind_ok.1 h₁
    obtain ⟨rfl, rfl⟩ := pure_ok.1 h₂
    obtain ⟨ls, hpass, hof⟩ := reads_type.sound htype
    exact ⟨_, (word_ok.1 hname).append hpass, .mk name hof⟩
  complete := by
    rintro s _ _ s' hpass ⟨name, hof⟩ hstop
    obtain ⟨s₁, hname, htype⟩ := TokenStream.Passes.cons_iff.1 hpass
    exact bind_ok.2 ⟨name, s₁, word_ok.2 hname,
      bind_ok.2 ⟨_, s', reads_type.complete htype hof hstop, rfl⟩⟩

/-- An item behind a symbol. -/
theorem reads_behind {item : Parser α} {phrase : Phrase α} {stops : Option Lexeme → Prop}
    (mark : Symbol) (hitem : Reads item phrase stops) :
    Reads (do symbol mark; item) (Behind mark phrase) stops where
  sound h := by
    obtain ⟨_, s₁, hmark, h₁⟩ := bind_ok.1 h
    obtain ⟨ls, hpass, hphrase⟩ := hitem.sound h₁
    exact ⟨_, (symbol_ok.1 hmark).append hpass, .mk hphrase⟩
  complete := by
    rintro s _ a s' hpass ⟨hphrase⟩ hstop
    obtain ⟨s₁, hmark, hrest⟩ := TokenStream.Passes.cons_iff.1 hpass
    exact bind_ok.2 ⟨(), s₁, symbol_ok.2 hmark, hitem.complete hrest hphrase hstop⟩

/-- An item before a symbol that stops it. -/
theorem reads_before {item : Parser α} {phrase : Phrase α} {stops : Option Lexeme → Prop}
    {mark : Symbol} (hitem : Reads item phrase stops) (hmark : stops (some (.symbol mark))) :
    Reads (do let a ← item; symbol mark; return a) (Before mark phrase) Anything where
  sound h := by
    obtain ⟨a, s₁, hread, h₁⟩ := bind_ok.1 h
    obtain ⟨_, s₂, hclose, h₂⟩ := bind_ok.1 h₁
    obtain ⟨rfl, rfl⟩ := pure_ok.1 h₂
    obtain ⟨ls, hpass, hphrase⟩ := hitem.sound hread
    exact ⟨_, hpass.append (symbol_ok.1 hclose), .mk hphrase⟩
  complete := by
    rintro s _ a s' hpass ⟨hphrase⟩ -
    obtain ⟨s₁, hrest, hclose⟩ := TokenStream.Passes.append_iff.1 hpass
    exact bind_ok.2 ⟨a, s₁, hitem.complete hrest hphrase (by rwa [hclose.next_eq]),
      bind_ok.2 ⟨(), s', symbol_ok.2 hclose, rfl⟩⟩

/-- The parameters behind the first. -/
theorem reads_others :
    Reads (manyUntil (behind? .closeParen) (do symbol .comma; parameter .parameterName))
      (Before .closeParen (Many (Behind .comma IsParameter))) Anything :=
  reads_manyUntil (reads_behind .comma (reads_parameter .parameterName)) behind_beginsWith
    (by simp) (by rintro _ rfl; simp) (by simp)

theorem reads_parameters : Reads parameters IsParameters Anything where
  sound h := by
    obtain ⟨_, s₁, hopen, h₁⟩ := bind_ok.1 h
    obtain ⟨found, s₂, hfound, h₂⟩ := bind_ok.1 h₁
    obtain ⟨rfl, hclose⟩ | ⟨rfl, rfl, -⟩ := optional_ok.1 hfound
    · obtain ⟨rfl, rfl⟩ := pure_ok.1 h₂
      exact ⟨_, (symbol_ok.1 hopen).append hclose, .none⟩
    · obtain ⟨first, s₃, hfirst, h₃⟩ := bind_ok.1 h₂
      obtain ⟨others, s₄, hothers, h₄⟩ := bind_ok.1 h₃
      obtain ⟨rfl, rfl⟩ := pure_ok.1 h₄
      obtain ⟨ls, hpass, hparameter⟩ := (reads_parameter _).sound hfirst
      obtain ⟨_, hpass', hmany⟩ := reads_others.sound hothers
      obtain ⟨hmany⟩ := hmany
      have hall := ((symbol_ok.1 hopen).append hpass).append hpass'
      rw [← List.append_assoc] at hall
      exact ⟨_, hall, .some hparameter hmany⟩
  complete := by
    rintro s _ _ s' hpass (_ | ⟨hfirst, hothers⟩) -
    · obtain ⟨s₁, hopen, hclose⟩ := TokenStream.Passes.cons_iff.1 hpass
      refine bind_ok.2 ⟨(), s₁, symbol_ok.2 hopen, bind_ok.2 ⟨true, s', ?_, rfl⟩⟩
      exact optional_ok.2 (.inl ⟨rfl, hclose⟩)
    · rw [List.append_assoc] at hpass
      obtain ⟨s₂, hpass, hrest⟩ := TokenStream.Passes.append_iff.1 hpass
      obtain ⟨s₁, hopen, hparameter⟩ := TokenStream.Passes.cons_iff.1 hpass
      have hnone : s₁.next ≠ some (.symbol .closeParen) := by
        obtain ⟨_, ms, rfl, name, rfl⟩ := isParameter_beginsWith hfirst
        simp [hparameter.next_eq]
      have hstop : s₂.next ≠ some (.symbol .dot) := by
        have hclosed : Before .closeParen (Many (Behind .comma IsParameter)) _ _ := .mk hothers
        obtain ⟨l, ms, hls, hl⟩ := before_many_beginsWith behind_beginsWith hclosed
        rw [hls] at hrest
        rw [hrest.next_eq]
        obtain rfl | rfl := hl <;> simp
      refine bind_ok.2 ⟨(), s₁, symbol_ok.2 hopen, bind_ok.2 ⟨false, s₁, ?_, ?_⟩⟩
      · exact optional_ok.2 (.inr ⟨rfl, rfl, hnone⟩)
      · exact bind_ok.2 ⟨_, s₂, (reads_parameter _).complete hparameter hfirst hstop,
          bind_ok.2 ⟨_, s', reads_others.complete hrest (.mk hothers) trivial, rfl⟩⟩

/-! ### Entries -/

/-- Entries in braces. -/
theorem reads_braced {entry : Parser α} {phrase : Phrase α} {stops : Option Lexeme → Prop}
    (hentry : Reads entry phrase stops) (hfirst : BeginsWith IsWord phrase)
    (hstop : stops (some (.symbol .semicolon))) :
    Reads (braced entry) (IsBlock phrase) Anything := by
  have hentries : Reads (manyUntil (behind? .closeBrace) _)
      (Before .closeBrace (Many (Before .semicolon phrase))) Anything :=
    reads_manyUntil (reads_before hentry hstop) (before_beginsWith hfirst) (by simp [IsWord])
      (fun _ => trivial) trivial
  constructor
  · intro s as s' h
    obtain ⟨_, s₁, hopen, h₁⟩ := bind_ok.1 h
    obtain ⟨_, hpass, hmany⟩ := hentries.sound h₁
    obtain ⟨hmany⟩ := hmany
    exact ⟨_, (symbol_ok.1 hopen).append hpass, .mk hmany⟩
  · rintro s _ as s' hpass ⟨hmany⟩ -
    obtain ⟨s₁, hopen, hrest⟩ := TokenStream.Passes.cons_iff.1 hpass
    exact bind_ok.2 ⟨(), s₁, symbol_ok.2 hopen, hentries.complete hrest (.mk hmany) trivial⟩

/-- The numbers of enum values are those of 32 bits. -/
theorem int32Of?_eq_some_iff {n : Int64} {number : Int32} :
    int32Of? n = some number ↔ n = number.toInt64 := by
  rw [int32Of?]
  constructor
  · intro h
    split at h
    · next hbounds =>
      cases h
      apply Int64.toInt_inj.1
      rw [Int32.toInt_toInt64, Int32.toInt_ofInt_of_le hbounds.1 (Int.lt_add_one_of_le hbounds.2)]
    · cases h
  · rintro rfl
    rw [Int32.toInt_toInt64, if_pos ⟨Int32.minValue_le_toInt number, Int32.toInt_le number⟩,
      Int32.ofInt_toInt]

theorem position_ok {here : Position} (h : position s = .ok (here, s')) : s = s' := by
  cases h; rfl

theorem reads_enumValue : Reads enumValue IsEnumValue Anything where
  sound h := by
    obtain ⟨name, s₁, hname, h₁⟩ := bind_ok.1 h
    obtain ⟨_, s₂, hequals, h₂⟩ := bind_ok.1 h₁
    obtain ⟨here, s₃, hhere, h₃⟩ := bind_ok.1 h₂
    obtain rfl := position_ok hhere
    obtain ⟨n, s₄, hn, h₄⟩ := bind_ok.1 h₃
    cases hnumber : int32Of? n with
    | none => simp only [hnumber] at h₄; cases h₄
    | some number =>
      simp only [hnumber] at h₄
      obtain ⟨rfl, rfl⟩ := pure_ok.1 h₄
      obtain rfl := int32Of?_eq_some_iff.1 hnumber
      exact ⟨_, (word_ok.1 hname).append ((symbol_ok.1 hequals).append (integer_ok.1 hn)),
        .mk name number⟩
  complete := by
    rintro s _ _ s' hpass ⟨name, number⟩ -
    obtain ⟨s₁, hname, hpass⟩ := TokenStream.Passes.cons_iff.1 hpass
    obtain ⟨s₂, hequals, hn⟩ := TokenStream.Passes.cons_iff.1 hpass
    refine bind_ok.2 ⟨name, s₁, word_ok.2 hname, bind_ok.2 ⟨(), s₂, symbol_ok.2 hequals, ?_⟩⟩
    refine bind_ok.2 ⟨_, s₂, rfl, bind_ok.2 ⟨_, s', integer_ok.2 hn, ?_⟩⟩
    rw [int32Of?_eq_some_iff.2 rfl]
    rfl

theorem reads_field : Reads field IsMessageField Anything where
  sound h := by
    obtain ⟨name, s₁, hname, h₁⟩ := bind_ok.1 h
    obtain ⟨type, s₂, htype, h₂⟩ := bind_ok.1 h₁
    obtain ⟨tag, s₃, htag, h₃⟩ := bind_ok.1 h₂
    obtain ⟨rfl, rfl⟩ := pure_ok.1 h₃
    obtain ⟨ls, hpass, hof⟩ := reads_type.sound htype
    exact ⟨_, ((word_ok.1 hname).append hpass).append (integer_ok.1 htag), .mk name hof tag⟩
  complete := by
    rintro s _ _ s' hpass ⟨name, hof, tag⟩ -
    obtain ⟨s₂, hpass, htag⟩ := TokenStream.Passes.append_iff.1 hpass
    obtain ⟨s₁, hname, htype⟩ := TokenStream.Passes.cons_iff.1 hpass
    have hstop : s₂.next ≠ some (.symbol .dot) := by simp [htag.next_eq]
    exact bind_ok.2 ⟨name, s₁, word_ok.2 hname,
      bind_ok.2 ⟨_, s₂, reads_type.complete htype hof hstop,
        bind_ok.2 ⟨tag, s', integer_ok.2 htag, rfl⟩⟩⟩

theorem get_ok {t : TokenStream} : (get : Parser TokenStream) s = .ok (t, s') ↔ s = t ∧ s = s' := by
  show Except.ok (s, s) = .ok (t, s') ↔ _
  simp

theorem reads_method : Reads method IsMethod (· ≠ some (.symbol .openParen)) where
  sound h := by
    obtain ⟨name, s₁, hname, h₁⟩ := bind_ok.1 h
    obtain ⟨args, s₂, hargs, h₂⟩ := bind_ok.1 h₁
    obtain ⟨ls, htakes, hargs⟩ := reads_parameters.sound hargs
    obtain ⟨t, _, hget, h₃⟩ := bind_ok.1 h₂
    obtain ⟨rfl, rfl⟩ := get_ok.1 hget
    split at h₃
    · obtain ⟨results, s₃, hresults, h₄⟩ := bind_ok.1 h₃
      obtain ⟨rfl, rfl⟩ := pure_ok.1 h₄
      obtain ⟨ms, hreturns, hresults⟩ := reads_parameters.sound hresults
      exact ⟨_, ((word_ok.1 hname).append htakes).append hreturns, .returning name hargs hresults⟩
    · obtain ⟨rfl, rfl⟩ := pure_ok.1 h₃
      exact ⟨_, (word_ok.1 hname).append htakes, .plain name hargs⟩
  complete := by
    rintro s _ _ s' hpass (⟨name, hargs⟩ | ⟨name, hargs, hresults⟩) hstop
    · obtain ⟨s₁, hname, htakes⟩ := TokenStream.Passes.cons_iff.1 hpass
      refine bind_ok.2 ⟨name, s₁, word_ok.2 hname,
        bind_ok.2 ⟨_, s', reads_parameters.complete htakes hargs trivial, ?_⟩⟩
      refine bind_ok.2 ⟨_, s', get_ok.2 ⟨rfl, rfl⟩, ?_⟩
      rw [behind?_eq_none_iff.2 hstop]
      rfl
    · obtain ⟨s₂, hpass, hreturns⟩ := TokenStream.Passes.append_iff.1 hpass
      obtain ⟨s₁, hname, htakes⟩ := TokenStream.Passes.cons_iff.1 hpass
      refine bind_ok.2 ⟨name, s₁, word_ok.2 hname,
        bind_ok.2 ⟨_, s₂, reads_parameters.complete htakes hargs trivial, ?_⟩⟩
      refine bind_ok.2 ⟨_, s₂, get_ok.2 ⟨rfl, rfl⟩, ?_⟩
      have hopen : (behind? .openParen s₂).isSome := by
        obtain ⟨_, ms, rfl, rfl⟩ := isParameters_beginsWith hresults
        obtain ⟨s₃, hparen, -⟩ := TokenStream.Passes.cons_iff.1 hreturns
        rw [behind?_eq_some_iff.2 hparen]
        rfl
      rw [if_pos hopen]
      exact bind_ok.2 ⟨_, s', reads_parameters.complete hreturns hresults trivial, rfl⟩

/-! ### Declarations -/

/-- A word stands next, or none does. -/
theorem reads_importSpec : Reads importSpec IsImportSpec Anything where
  sound := by
    intro s i s' h
    obtain ⟨t, _, hget, h₁⟩ := bind_ok.1 h
    obtain ⟨rfl, rfl⟩ := get_ok.1 hget
    cases hnext : s.tokens.head?.bind (·.lexeme.word?) <;> simp only [hnext] at h₁
    · obtain ⟨path, s₁, hpath, h₂⟩ := bind_ok.1 h₁
      obtain ⟨rfl, rfl⟩ := pure_ok.1 h₂
      exact ⟨_, text_ok.1 hpath, .plain path⟩
    · obtain ⟨name, s₁, hname, h₂⟩ := bind_ok.1 h₁
      obtain ⟨path, s₂, hpath, h₃⟩ := bind_ok.1 h₂
      obtain ⟨rfl, rfl⟩ := pure_ok.1 h₃
      exact ⟨_, (word_ok.1 hname).append (text_ok.1 hpath), .named name path⟩
  complete := by
    rintro s _ _ s' hpass (path | ⟨name, path⟩) -
    · refine bind_ok.2 ⟨s, s, get_ok.2 ⟨rfl, rfl⟩, ?_⟩
      have hnext : s.tokens.head?.bind (·.lexeme.word?) = none := by cases hpass; rfl
      rw [hnext]
      exact bind_ok.2 ⟨path, s', text_ok.2 hpass, rfl⟩
    · refine bind_ok.2 ⟨s, s, get_ok.2 ⟨rfl, rfl⟩, ?_⟩
      have hnext : s.tokens.head?.bind (·.lexeme.word?) = some name := by cases hpass; rfl
      obtain ⟨s₁, hname, hpath⟩ := TokenStream.Passes.cons_iff.1 hpass
      rw [hnext]
      exact bind_ok.2 ⟨name, s₁, word_ok.2 hname, bind_ok.2 ⟨path, s', text_ok.2 hpath, rfl⟩⟩

theorem reads_importSpecs :
    Reads (manyUntil (behind? .closeParen) importSpec) (Before .closeParen (Many IsImportSpec))
      Anything :=
  reads_manyUntil reads_importSpec isImportSpec_beginsWith (by simp) (fun _ => trivial) trivial

theorem reads_imports : Reads imports IsImports Anything where
  sound h := by
    obtain ⟨found, s₁, hfound, h₁⟩ := bind_ok.1 h
    obtain ⟨rfl, hopen⟩ | ⟨rfl, rfl, -⟩ := optional_ok.1 hfound
    · obtain ⟨_, hpass, hmany⟩ := reads_importSpecs.sound h₁
      obtain ⟨hmany⟩ := hmany
      exact ⟨_, hopen.append hpass, .group hmany⟩
    · obtain ⟨i, s₂, hspec, h₂⟩ := bind_ok.1 h₁
      obtain ⟨rfl, rfl⟩ := pure_ok.1 h₂
      obtain ⟨ls, hpass, hspec⟩ := reads_importSpec.sound hspec
      exact ⟨_, hpass, .single hspec⟩
  complete := by
    rintro s _ _ s' hpass (hspec | hspecs) -
    · refine bind_ok.2 ⟨false, s, optional_ok.2 (.inr ⟨rfl, rfl, ?_⟩),
        bind_ok.2 ⟨_, s', reads_importSpec.complete hpass hspec trivial, rfl⟩⟩
      obtain ⟨l, ms, rfl, hl⟩ := isImportSpec_beginsWith hspec
      rw [hpass.next_eq]
      exact fun h => hl _ (Option.some.inj h)
    · obtain ⟨s₁, hopen, hrest⟩ := TokenStream.Passes.cons_iff.1 hpass
      exact bind_ok.2 ⟨true, s₁, optional_ok.2 (.inl ⟨rfl, hopen⟩),
        reads_importSpecs.complete hrest (.mk hspecs) trivial⟩

theorem reads_setting : Reads setting IsSetting Anything where
  sound h := by
    obtain ⟨name, s₁, hname, h₁⟩ := bind_ok.1 h
    obtain ⟨_, s₂, hequals, h₂⟩ := bind_ok.1 h₁
    obtain ⟨value, s₃, hvalue, h₃⟩ := bind_ok.1 h₂
    obtain ⟨_, s₄, hend, h₄⟩ := bind_ok.1 h₃
    obtain ⟨rfl, rfl⟩ := pure_ok.1 h₄
    exact ⟨_, (word_ok.1 hname).append ((symbol_ok.1 hequals).append
      ((text_ok.1 hvalue).append (symbol_ok.1 hend))), .mk name value⟩
  complete := by
    rintro s _ _ s' hpass ⟨name, value⟩ -
    obtain ⟨s₁, hname, hpass⟩ := TokenStream.Passes.cons_iff.1 hpass
    obtain ⟨s₂, hequals, hpass⟩ := TokenStream.Passes.cons_iff.1 hpass
    obtain ⟨s₃, hvalue, hend⟩ := TokenStream.Passes.cons_iff.1 hpass
    exact bind_ok.2 ⟨name, s₁, word_ok.2 hname, bind_ok.2 ⟨(), s₂, symbol_ok.2 hequals,
      bind_ok.2 ⟨value, s₃, text_ok.2 hvalue, bind_ok.2 ⟨(), s', symbol_ok.2 hend, rfl⟩⟩⟩⟩

/-- A name and a body. -/
inductive Named (phrase : Phrase β) (build : String → β → α) : Phrase α
  | mk {ls : List Lexeme} {b : β} (name : String) (of : phrase ls b) :
      Named phrase build (.word name :: ls) (build name b)

theorem reads_named {body : Parser β} {phrase : Phrase β} (wanted : Wanted)
    (build : String → β → α) (hbody : Reads body phrase Anything) :
    Reads (do return build (← word wanted) (← body)) (Named phrase build) Anything where
  sound h := by
    obtain ⟨name, s₁, hname, h₁⟩ := bind_ok.1 h
    obtain ⟨b, s₂, hread, h₂⟩ := bind_ok.1 h₁
    obtain ⟨rfl, rfl⟩ := pure_ok.1 h₂
    obtain ⟨ms, hpass, hb⟩ := hbody.sound hread
    exact ⟨_, (word_ok.1 hname).append hpass, .mk name hb⟩
  complete := by
    rintro s _ _ s' hpass ⟨name, hb⟩ -
    obtain ⟨s₁, hname, hrest⟩ := TokenStream.Passes.cons_iff.1 hpass
    exact bind_ok.2 ⟨name, s₁, word_ok.2 hname,
      bind_ok.2 ⟨_, s', hbody.complete hrest hb trivial, rfl⟩⟩

theorem reads_enum :
    Reads (do return Declaration.definition ⟨← word .enumName, .enum (← braced enumValue)⟩)
      (Named (IsBlock IsEnumValue) fun name values => .definition ⟨name, .enum values⟩) Anything :=
  reads_named _ _ (reads_braced reads_enumValue isEnumValue_beginsWith trivial)

theorem reads_message :
    Reads (do return Declaration.definition ⟨← word .messageName, .message (← braced field)⟩)
      (Named (IsBlock IsMessageField) fun name fields => .definition ⟨name, .message fields⟩)
      Anything :=
  reads_named _ _ (reads_braced reads_field isMessageField_beginsWith trivial)

theorem reads_struct :
    Reads (do
        return Declaration.definition
          ⟨← word .structName, .struct (← braced (parameter .fieldName))⟩)
      (Named (IsBlock IsParameter) fun name fields => .definition ⟨name, .struct fields⟩)
      Anything :=
  reads_named _ _ (reads_braced (reads_parameter _) isParameter_beginsWith (by simp))

theorem reads_service :
    Reads (do return Declaration.definition ⟨← word .serviceName, .service (← braced method)⟩)
      (Named (IsBlock IsMethod) fun name methods => .definition ⟨name, .service methods⟩)
      Anything :=
  reads_named _ _ (reads_braced reads_method isMethod_beginsWith (by simp))

/-- The keyword decides what kind of declaration follows. -/
theorem reads_declaration : Reads declaration IsDeclaration Anything where
  sound := by
    intro s d s' h
    obtain ⟨here, s₀, hhere, h₁⟩ := bind_ok.1 h
    obtain rfl := position_ok hhere
    obtain ⟨keyword, s₁, hkeyword, h₂⟩ := bind_ok.1 h₁
    have hword := word_ok.1 hkeyword
    split_ifs at h₂ with himport hoption henum hmessage hstruct hservice
    · subst himport
      obtain ⟨is, s₂, hread, h₃⟩ := bind_ok.1 h₂
      obtain ⟨rfl, rfl⟩ := pure_ok.1 h₃
      obtain ⟨ls, hpass, hspecs⟩ := reads_imports.sound hread
      exact ⟨_, hword.append hpass, .imports hspecs⟩
    · subst hoption
      obtain ⟨o, s₂, hread, h₃⟩ := bind_ok.1 h₂
      obtain ⟨rfl, rfl⟩ := pure_ok.1 h₃
      obtain ⟨ls, hpass, hsetting⟩ := reads_setting.sound hread
      exact ⟨_, hword.append hpass, .option hsetting⟩
    · subst henum
      obtain ⟨_, hpass, ⟨name, hblock⟩⟩ := reads_enum.sound h₂
      exact ⟨_, hword.append hpass, .definition (.enum name hblock)⟩
    · subst hmessage
      obtain ⟨_, hpass, ⟨name, hblock⟩⟩ := reads_message.sound h₂
      exact ⟨_, hword.append hpass, .definition (.message name hblock)⟩
    · subst hstruct
      obtain ⟨_, hpass, ⟨name, hblock⟩⟩ := reads_struct.sound h₂
      exact ⟨_, hword.append hpass, .definition (.struct name hblock)⟩
    · subst hservice
      obtain ⟨_, hpass, ⟨name, hblock⟩⟩ := reads_service.sound h₂
      exact ⟨_, hword.append hpass, .definition (.service name hblock)⟩
    · cases h₂
  complete := by
    rintro s _ _ s' hpass h -
    obtain ⟨_, ms, rfl, keyword, rfl⟩ := isDeclaration_beginsWith h
    obtain ⟨s₁, hkeyword, hrest⟩ := TokenStream.Passes.cons_iff.1 hpass
    refine bind_ok.2 ⟨_, s, rfl, bind_ok.2 ⟨_, s₁, word_ok.2 hkeyword, ?_⟩⟩
    cases h with
    | imports specs => exact bind_ok.2 ⟨_, s', reads_imports.complete hrest specs trivial, rfl⟩
    | option setting => exact bind_ok.2 ⟨_, s', reads_setting.complete hrest setting trivial, rfl⟩
    | definition of =>
      cases of with
      | enum name block => exact reads_enum.complete hrest (.mk name block) trivial
      | message name block => exact reads_message.complete hrest (.mk name block) trivial
      | struct name block => exact reads_struct.complete hrest (.mk name block) trivial
      | service name block => exact reads_service.complete hrest (.mk name block) trivial

/-! ### Files -/

theorem behindEnd?_eq_some_iff : behindEnd? s = some s' ↔ s.tokens = [] ∧ s = s' := by
  rw [behindEnd?]
  split <;> simp_all

/-- **A file is read exactly if it derives**, and to its end. -/
theorem file_ok {f : SchemaFile} :
    file s = .ok (f, s') ↔ s'.tokens = [] ∧ ∃ ls, s.Passes ls s' ∧ IsFile ls f := by
  constructor
  · intro h
    obtain ⟨ds, s₁, hread, h₁⟩ := bind_ok.1 h
    obtain ⟨rfl, rfl⟩ := pure_ok.1 h₁
    obtain ⟨ls, s₂, hpass, hmany, hended⟩ :=
      manyWithin_sound reads_declaration isDeclaration_beginsWith (Nat.le_refl _) hread
    obtain ⟨hend, rfl⟩ := behindEnd?_eq_some_iff.1 hended
    exact ⟨hend, ls, hpass, .mk hmany⟩
  · rintro ⟨hend, ls, hpass, ⟨hmany⟩⟩
    refine bind_ok.2 ⟨_, s', ?_, rfl⟩
    refine manyWithin_complete reads_declaration isDeclaration_beginsWith ?_ (fun _ => trivial)
      (behindEnd?_eq_some_iff.2 ⟨hend, rfl⟩) trivial hmany hpass ?_
    · intro s l hnext _
      have hne : s.tokens ≠ [] := by
        intro hnil
        rw [TokenStream.next, hnil] at hnext
        cases hnext
      rw [behindEnd?, if_neg hne]
    · have hlength := hpass.length_eq
      have hcount := length_le_of_many isDeclaration_beginsWith hmany
      omega

end Parser

/-! ### Texts -/

theorem TokenStream.passes_to_end (s : TokenStream) :
    s.Passes (s.tokens.map Token.lexeme) ⟨[], s.stop⟩ := by
  obtain ⟨ts, stop⟩ := s
  induction ts with
  | nil => exact .nil _
  | cons t ts ih => exact .cons ih

theorem TokenStream.Passes.eq_lexemes (h : s.Passes ls s') (hend : s'.tokens = []) :
    ls = s.tokens.map Token.lexeme := by
  induction h with
  | nil s => rw [hend]; rfl
  | cons _ ih => rw [ih hend]; rfl

/-- **A text is parsed exactly if it is read to its end and its lexemes derive.** -/
theorem parse_eq_ok_iff {source : String} {f : SchemaFile} :
    parse source = .ok f ↔
      (∃ stop, (readTokens source).ending = .ok stop)
        ∧ Phrases.IsFile ((readTokens source).tokens.map Token.lexeme) f := by
  cases hending : (readTokens source).ending with
  | error e => simp [parse, tokenize, hending, Except.map, bind, Except.bind]
  | ok stop =>
    have hparse : parse source = .ok f
        ↔ ∃ s, Parser.file ⟨(readTokens source).tokens, stop⟩ = .ok (f, s) := by
      simp only [parse, tokenize, hending, Except.map, bind, Except.bind]
      cases Parser.file ⟨(readTokens source).tokens, stop⟩ with
      | error e => simp
      | ok r => exact ⟨fun h => by cases h; exact ⟨r.2, rfl⟩, fun ⟨s, h⟩ => by cases h; rfl⟩
    simp only [hparse, Parser.file_ok]
    constructor
    · rintro ⟨s, hend, ls, hpass, hfile⟩
      rw [hpass.eq_lexemes hend] at hfile
      exact ⟨⟨stop, rfl⟩, hfile⟩
    · rintro ⟨-, hfile⟩
      exact ⟨_, rfl, _, TokenStream.passes_to_end _, hfile⟩

end Backwire.Schema
