import Mathlib
import Backwire.Proofs.Schema.Parsing

/-!
# Where the parser stops

The places of a stream are its tokens and, once, its end behind them. A reader goes from place to
place and looks at no more than the one at which it stands. So when it succeeds it has passed some
tokens, and it does the same on every stream that agrees with this one up to the place where it has
come to. And when it fails, its error stands at the place to which it has come and names what is found
there, and it fails in the same way on every stream that agrees up to this place. `AttentiveAt` says both.

Readers that are put together are attentive if their parts are. A loop is no different, since every
item takes a token: it is what it would be without a bound on the number of its rounds
(`manyUntil_eq`), and there is an end to it because there is an end to the tokens.

With the grammar, this settles what becomes of every sequence of tokens: it derives and is read to its
end, or it is refused at one of its places (`parse_accepts_or_refuses`).
-/

namespace Backwire.Schema

/-! ### Places -/

namespace TokenStream

/-- What stands at each place of a stream: its tokens and, behind them, its end. -/
def places (s : TokenStream) : List (Option Lexeme × Position) :=
  s.tokens.map (fun t => (some t.lexeme, t.position)) ++ [(none, s.stop)]

/-- What is left behind so many tokens. -/
def skip (s : TokenStream) (n : Nat) : TokenStream := ⟨s.tokens.drop n, s.stop⟩

/-- What stands next: a token, or the end. -/
def place : TokenStream → Option Lexeme × Position
  | ⟨[], stop⟩ => (none, stop)
  | ⟨t :: _, _⟩ => (some t.lexeme, t.position)

/-- **The streams agree** in the first tokens, `n` of them, and in what stands next. -/
def Agree (n : Nat) (s t : TokenStream) : Prop := t.places.take (n + 1) = s.places.take (n + 1)

variable {s t : TokenStream} {n m : Nat}

theorem skip_skip (s : TokenStream) (n m : Nat) : (s.skip n).skip m = s.skip (n + m) := by
  rw [skip, skip, skip, List.drop_drop]

theorem length_skip (s : TokenStream) (n : Nat) :
    (s.skip n).tokens.length = s.tokens.length - n := List.length_drop

theorem length_places (s : TokenStream) : s.places.length = s.tokens.length + 1 := by
  simp [places]

theorem places_skip (h : n ≤ s.tokens.length) : (s.skip n).places = s.places.drop n := by
  rw [places, places, List.drop_append_of_le_length (by simpa using h), skip, List.map_drop]

theorem head?_places (s : TokenStream) : s.places.head? = some s.place := by
  obtain ⟨_ | ⟨t, ts⟩, stop⟩ := s <;> rfl

theorem getElem?_places (h : n ≤ s.tokens.length) : s.places[n]? = some (s.skip n).place := by
  rw [← head?_places, places_skip h, List.head?_drop]

namespace Agree

theorem refl (n : Nat) (s : TokenStream) : Agree n s s := rfl

theorem mono (h : Agree n s t) (hm : m ≤ n) : Agree m s t := by
  have := congrArg (List.take (m + 1)) h
  rwa [List.take_take, List.take_take, Nat.min_eq_left (by omega)] at this

theorem le_length (h : Agree n s t) (hn : n ≤ s.tokens.length) : n ≤ t.tokens.length := by
  have := congrArg List.length h
  rw [List.length_take, List.length_take, length_places, length_places] at this
  omega

/-- Streams agree in what stands next. -/
theorem place_eq (h : Agree n s t) : t.place = s.place := by
  have hfirst := congrArg List.head? (h.mono n.zero_le)
  rw [List.head?_take, List.head?_take, head?_places, head?_places] at hfirst
  simpa using hfirst

/-- Behind tokens in which they agree, streams agree. -/
theorem skip (h : Agree (n + m) s t) (hn : n ≤ s.tokens.length) :
    Agree m (s.skip n) (t.skip n) := by
  have hlength := (h.mono (Nat.le_add_right n m)).le_length hn
  rw [Agree, places_skip hlength, places_skip hn, List.take_drop, List.take_drop]
  exact congrArg (List.drop n) h

end Agree

end TokenStream

/-- **The fault names what is found at its place.** -/
def SyntaxFault.Names : SyntaxFault → Option Lexeme → Prop
  | expected _ found, l => found = l
  | unknownDeclaration name, l => l = some (.word name)
  | numberTooLarge value, l => l = some (.integer value)
  | _, _ => False

/-! ### Attentive readers -/

namespace Parser

open TokenStream (Agree)
open Phrases

variable {α β : Type} {s s' : TokenStream}

/-- **The reader looks at nothing behind the place to which it has come.** -/
structure AttentiveAt (p : Parser α) (s : TokenStream) : Prop where
  ok : ∀ {a s'}, p s = .ok (a, s') →
    ∃ n ≤ s.tokens.length, s' = s.skip n ∧ ∀ t, Agree n s t → p t = .ok (a, t.skip n)
  error : ∀ {e}, p s = .error e →
    ∃ n ≤ s.tokens.length, ∃ found, (s.skip n).place = (found, e.position) ∧ e.fault.Names found ∧
      ∀ t, Agree n s t → p t = .error e

/-- It does so wherever it is used. -/
def Attentive (p : Parser α) : Prop := ∀ s, AttentiveAt p s

theorem bind_of_ok {p : Parser α} {f : α → Parser β} {a : α} (h : p s = .ok (a, s')) :
    (p >>= f) s = f a s' := by
  show (p s >>= fun r => f r.1 r.2) = _
  rw [h]
  rfl

theorem bind_error {p : Parser α} {f : α → Parser β} {e : SyntaxError} :
    (p >>= f) s = .error e ↔ p s = .error e ∨ ∃ a s', p s = .ok (a, s') ∧ f a s' = .error e := by
  show (p s >>= fun r => f r.1 r.2) = .error e ↔ _
  cases p s with
  | error e' => simp [Bind.bind, Except.bind]
  | ok r =>
    constructor
    · exact fun h => .inr ⟨r.1, r.2, rfl, h⟩
    · rintro (h | ⟨a, s', hr, h⟩)
      · cases h
      · cases hr
        exact h

theorem AttentiveAt.bind {p : Parser α} {f : α → Parser β} (hp : AttentiveAt p s)
    (hf : ∀ a s', p s = .ok (a, s') → AttentiveAt (f a) s') : AttentiveAt (p >>= f) s where
  ok := by
    intro b s'' h
    obtain ⟨a, s', hfirst, hsecond⟩ := bind_ok.1 h
    obtain ⟨n, hn, rfl, hagree⟩ := hp.ok hfirst
    obtain ⟨m, hm, rfl, hagree'⟩ := (hf a _ hfirst).ok hsecond
    rw [TokenStream.length_skip] at hm
    refine ⟨n + m, by omega, s.skip_skip n m, fun t ht => ?_⟩
    rw [← t.skip_skip]
    exact bind_ok.2 ⟨a, t.skip n, hagree t (ht.mono (Nat.le_add_right n m)),
      hagree' _ (ht.skip hn)⟩
  error := by
    intro e h
    rcases bind_error.1 h with hfirst | ⟨a, s', hfirst, hsecond⟩
    · obtain ⟨n, hn, found, hplace, hnames, hagree⟩ := hp.error hfirst
      exact ⟨n, hn, found, hplace, hnames, fun t ht => bind_error.2 (.inl (hagree t ht))⟩
    · obtain ⟨n, hn, rfl, hagree⟩ := hp.ok hfirst
      obtain ⟨m, hm, found, hplace, hnames, hagree'⟩ := (hf a _ hfirst).error hsecond
      rw [TokenStream.length_skip] at hm
      rw [TokenStream.skip_skip] at hplace
      refine ⟨n + m, by omega, found, hplace, hnames, fun t ht => bind_error.2 (.inr ?_)⟩
      exact ⟨a, t.skip n, hagree t (ht.mono (Nat.le_add_right n m)), hagree' _ (ht.skip hn)⟩

/-- A reader that passes some tokens, whatever stands behind the next place. -/
theorem AttentiveAt.accepts {p : Parser α} {n : Nat} {a : α} (hn : n ≤ s.tokens.length)
    (h : ∀ t, Agree n s t → p t = .ok (a, t.skip n)) : AttentiveAt p s := by
  have hs := h s (Agree.refl n s)
  constructor
  · intro b s' hb
    rw [hs] at hb
    cases hb
    exact ⟨n, hn, rfl, h⟩
  · intro e he
    rw [hs] at he
    cases he

/-- A reader that refuses what stands next. -/
theorem AttentiveAt.refuses {p : Parser α} {e : SyntaxError} {found : Option Lexeme}
    (hplace : s.place = (found, e.position)) (hnames : e.fault.Names found)
    (h : ∀ t, Agree 0 s t → p t = .error e) : AttentiveAt p s := by
  have hs := h s (Agree.refl 0 s)
  constructor
  · intro a s' ha
    rw [hs] at ha
    cases ha
  · intro e' he
    rw [hs] at he
    cases he
    exact ⟨0, Nat.zero_le _, found, hplace, hnames, h⟩

/-- What a reader does may be told by what stands next. -/
theorem AttentiveAt.congr {p q : Parser α} (h : AttentiveAt p s)
    (heq : ∀ t, Agree 0 s t → q t = p t) : AttentiveAt q s := by
  have hs := heq s (Agree.refl 0 s)
  constructor
  · intro a s' ha
    rw [hs] at ha
    obtain ⟨n, hn, hs', hagree⟩ := h.ok ha
    exact ⟨n, hn, hs', fun t ht => (heq t (ht.mono n.zero_le)).trans (hagree t ht)⟩
  · intro e he
    rw [hs] at he
    obtain ⟨n, hn, found, hplace, hnames, hagree⟩ := h.error he
    exact ⟨n, hn, found, hplace, hnames,
      fun t ht => (heq t (ht.mono n.zero_le)).trans (hagree t ht)⟩

namespace Attentive

theorem pure (a : α) : Attentive (Pure.pure a) :=
  fun _ => .accepts (Nat.zero_le _) fun _ _ => rfl

theorem bind {p : Parser α} {f : α → Parser β} (hp : Attentive p) (hf : ∀ a, Attentive (f a)) :
    Attentive (p >>= f) := fun s => (hp s).bind fun a s' _ => hf a s'

theorem ite {P : Prop} [Decidable P] {p q : Parser α} (hp : Attentive p) (hq : Attentive q) :
    Attentive (if P then p else q) := by
  by_cases h : P
  · rwa [if_pos h]
  · rwa [if_neg h]

end Attentive

/-- A choice by what stands next. -/
theorem attentive_choice {p : Parser α} (f : Option Lexeme → Parser α) (hf : ∀ l, Attentive (f l))
    (hp : ∀ s, p s = f s.next s) : Attentive p := by
  have hnext (s : TokenStream) : s.next = s.place.1 := by
    obtain ⟨_ | ⟨t, ts⟩, stop⟩ := s <;> rfl
  intro s
  refine (hf s.next s).congr fun t ht => ?_
  rw [hp, hnext, hnext, ht.place_eq]

/-! ### Single tokens -/

/-- A stream that agrees with one that has ended has ended at the same place. -/
theorem eq_nil_of_agree {n : Nat} {stop : Position} {t : TokenStream} (h : Agree n ⟨[], stop⟩ t) :
    t = ⟨[], stop⟩ := by
  obtain ⟨_ | ⟨u, us⟩, stop'⟩ := t
  · cases h.place_eq
    rfl
  · cases h.place_eq

/-- A stream that agrees with one that goes on has the same token next. -/
theorem eq_cons_of_agree {n : Nat} {u : Token} {us : List Token} {stop : Position}
    {t : TokenStream} (h : Agree n ⟨u :: us, stop⟩ t) : ∃ us' stop', t = ⟨u :: us', stop'⟩ := by
  obtain ⟨_ | ⟨u', us'⟩, stop'⟩ := t
  · cases h.place_eq
  · have hplace := h.place_eq
    obtain ⟨lexeme, p⟩ := u
    obtain ⟨lexeme', p'⟩ := u'
    cases hplace
    exact ⟨us', stop', rfl⟩

theorem attentive_take (wanted : Wanted) (form : Lexeme → Option α) :
    Attentive (take wanted form) := by
  rintro ⟨_ | ⟨u, us⟩, stop⟩
  · refine .refuses (e := ⟨stop, .expected wanted none⟩) rfl rfl fun t ht => ?_
    obtain rfl := eq_nil_of_agree ht
    rfl
  · cases hform : form u.lexeme with
    | none =>
      refine .refuses (e := ⟨u.position, .expected wanted (some u.lexeme)⟩) rfl rfl fun t ht => ?_
      obtain ⟨us', stop', rfl⟩ := eq_cons_of_agree ht
      simp only [take, hform]
    | some a =>
      refine .accepts (n := 1) (a := a) (Nat.le_add_left 1 _) fun t ht => ?_
      obtain ⟨us', stop', rfl⟩ := eq_cons_of_agree ht
      simp only [take, hform]
      rfl

theorem attentive_word (wanted : Wanted) : Attentive (word wanted) := attentive_take _ _

theorem attentive_text (wanted : Wanted) : Attentive (text wanted) := attentive_take _ _

theorem attentive_integer (wanted : Wanted) : Attentive (integer wanted) := attentive_take _ _

theorem attentive_symbol (mark : Symbol) : Attentive (symbol mark) := attentive_take _ _

/-- A token that is taken and may then be refused at its own place. -/
theorem attentive_located {wanted : Wanted} {form : Lexeme → Option α} {f : Position → α → Parser β}
    (hf : ∀ here l a, form l = some a →
      Attentive (f here a) ∨ ∃ fault, f here a = fail here fault ∧ fault.Names (some l)) :
    Attentive (do let here ← position; let a ← take wanted form; f here a) := by
  rintro ⟨_ | ⟨u, us⟩, stop⟩
  · refine .refuses (e := ⟨stop, .expected wanted none⟩) rfl rfl fun t ht => ?_
    obtain rfl := eq_nil_of_agree ht
    rfl
  · -- behind the token that stands next the reader goes on as if its place had been known before
    have hread : ∀ t, Agree 0 ⟨u :: us, stop⟩ t →
        (do let here ← position; let a ← take wanted form; f here a) t =
          (take wanted form >>= f u.position) t := by
      intro t ht
      obtain ⟨us', stop', rfl⟩ := eq_cons_of_agree ht
      rfl
    refine AttentiveAt.congr ?_ hread
    cases hform : form u.lexeme with
    | none =>
      refine .refuses (e := ⟨u.position, .expected wanted (some u.lexeme)⟩) rfl rfl fun t ht => ?_
      obtain ⟨us', stop', rfl⟩ := eq_cons_of_agree ht
      refine bind_error.2 (.inl ?_)
      simp only [take, hform]
    | some a =>
      have htake (us' : List Token) (stop' : Position) :
          take wanted form ⟨u :: us', stop'⟩ = .ok (a, ⟨us', stop'⟩) := by
        simp only [take, hform]
      rcases hf u.position u.lexeme a hform with hattentive | ⟨fault, hfail, hnames⟩
      · refine (attentive_take wanted form _).bind fun a' s' h => ?_
        rw [htake] at h
        cases h
        exact hattentive _
      · refine .refuses (e := ⟨u.position, fault⟩) rfl hnames fun t ht => ?_
        obtain ⟨us', stop', rfl⟩ := eq_cons_of_agree ht
        refine bind_error.2 (.inr ⟨a, _, htake us' stop', ?_⟩)
        rw [hfail]
        rfl

/-- Tells whether the end stands next, and passes it if it does. -/
def passing (ended : TokenStream → Option TokenStream) : Parser Bool := fun s =>
  match ended s with
  | some s' => .ok (true, s')
  | none => .ok (false, s)

theorem attentive_optional (mark : Symbol) : Attentive (optional mark) := by
  intro s
  by_cases hnext : s.next = some (.symbol mark)
  · obtain ⟨_ | ⟨⟨lexeme, p⟩, ts⟩, stop⟩ := s
    · cases hnext
    · obtain rfl : lexeme = .symbol mark := Option.some.inj hnext
      refine .accepts (n := 1) (a := true) (Nat.le_add_left 1 _) fun t ht => ?_
      obtain ⟨us', stop', rfl⟩ := eq_cons_of_agree ht
      exact optional_ok.2 (.inl ⟨rfl, .cons (.nil _)⟩)
  · refine .accepts (Nat.zero_le _) fun t ht => optional_ok.2 (.inr ⟨rfl, rfl, ?_⟩)
    obtain ⟨_ | ⟨u, us⟩, stop⟩ := s
    · obtain rfl := eq_nil_of_agree ht
      exact hnext
    · obtain ⟨us', stop', rfl⟩ := eq_cons_of_agree ht
      exact hnext

theorem attentive_behindEnd : Attentive (passing behindEnd?) := by
  rintro ⟨_ | ⟨u, us⟩, stop⟩
  · refine .accepts (a := true) (Nat.zero_le _) fun t ht => ?_
    obtain rfl := eq_nil_of_agree ht
    rfl
  · refine .accepts (a := false) (Nat.zero_le _) fun t ht => ?_
    obtain ⟨us', stop', rfl⟩ := eq_cons_of_agree ht
    rfl

/-! ### Loops -/

/-- The reader takes a token. -/
def Takes (p : Parser α) : Prop :=
  ∀ ⦃s a s'⦄, p s = .ok (a, s') → s'.tokens.length < s.tokens.length

/-- A phrase has a lexeme. -/
theorem Reads.takes {p : Parser α} {phrase : Phrase α} {stops : Option Lexeme → Prop}
    {first : Lexeme → Prop} (h : Reads p phrase stops) (hfirst : BeginsWith first phrase) :
    Takes p := by
  intro s a s' hread
  obtain ⟨ls, hpass, hphrase⟩ := h.sound hread
  obtain ⟨l, ms, rfl, -⟩ := hfirst hphrase
  have hlength := hpass.length_eq
  rw [List.length_cons] at hlength
  omega

section Loops

variable {ended : TokenStream → Option TokenStream} {item : Parser α}

/-- Every budget that covers the tokens that are left is as good as any other. -/
theorem manyWithin_eq (hitem : Takes item) {budget budget' : List Token} {s : TokenStream}
    (h : s.tokens.length ≤ budget.length) (h' : s.tokens.length ≤ budget'.length) :
    manyWithin ended item budget s = manyWithin ended item budget' s := by
  induction budget generalizing budget' s with
  | nil =>
    have hnone {a : α} {s' : TokenStream} : item s ≠ .ok (a, s') := fun hread =>
      absurd (hitem hread) (Nat.not_lt.2 (Nat.le_trans h (Nat.zero_le _)))
    unfold manyWithin
    cases hended : ended s with
    | some s' => rfl
    | none =>
      cases hread : item s with
      | error e => rfl
      | ok r => exact absurd hread hnone
  | cons t budget ih =>
    unfold manyWithin
    cases hended : ended s with
    | some s' => rfl
    | none =>
      cases hread : item s with
      | error e => rfl
      | ok r =>
        have hlt := hitem hread
        cases budget' with
        | nil => exact absurd hlt (Nat.not_lt.2 (Nat.le_trans h' (Nat.zero_le _)))
        | cons t' budget' =>
          simp only [List.length_cons] at h h'
          have hrest : manyWithin ended item budget r.2 = manyWithin ended item budget' r.2 :=
            ih (by omega) (by omega)
          simp only [hrest]

/-- **The budget never ends a loop**: what is read until the end stands next is nothing or an item
and what is read then. -/
theorem manyUntil_eq (hitem : Takes item) :
    manyUntil ended item = (do
      if ← passing ended then return []
      else
        let a ← item
        let as ← manyUntil ended item
        return a :: as) := by
  funext s
  cases hended : ended s with
  | some s' =>
    have hpassed : passing ended s = .ok (true, s') := by rw [passing, hended]
    rw [bind_of_ok hpassed]
    unfold manyUntil manyWithin
    rw [hended]
    rfl
  | none =>
    have hpassed : passing ended s = .ok (false, s) := by rw [passing, hended]
    rw [bind_of_ok hpassed]
    change _ = (item >>= fun a => manyUntil ended item >>= fun as => pure (a :: as)) s
    cases hread : item s with
    | error e =>
      rw [bind_error.2 (.inl hread)]
      unfold manyUntil manyWithin
      simp only [hended, hread]
    | ok r =>
      obtain ⟨a, s'⟩ := r
      have hlt := hitem hread
      rw [bind_of_ok hread]
      -- an item was read, so there was a token to pay for it
      have hpaid : ∃ t budget, s.tokens = t :: budget := by
        refine List.exists_cons_of_ne_nil fun hnil => ?_
        rw [hnil] at hlt
        cases hlt
      obtain ⟨t, budget, htokens⟩ := hpaid
      rw [htokens, List.length_cons] at hlt
      have hbudget : manyWithin ended item budget s' = manyUntil ended item s' :=
        manyWithin_eq hitem (Nat.le_of_lt_succ hlt) (Nat.le_refl _)
      conv => lhs; unfold manyUntil manyWithin
      simp only [hended, hread, htokens, hbudget]
      cases hrest : manyUntil ended item s' with
      | error e => rw [bind_error.2 (.inl hrest)]
      | ok r =>
        rw [bind_of_ok hrest]
        rfl

/-- **A loop is attentive**, round by round; there are no more rounds than tokens. -/
theorem attentive_manyUntil (hended : Attentive (passing ended)) (hitem : Attentive item)
    (htakes : Takes item) : Attentive (manyUntil ended item) := by
  intro s
  induction hlen : s.tokens.length using Nat.strongRecOn generalizing s with
  | ind len ih =>
    subst hlen
    have hround : AttentiveAt (do
        if ← passing ended then return []
        else
          let a ← item
          let as ← manyUntil ended item
          return a :: as) s := by
      refine (hended s).bind fun found s₁ hfound => ?_
      cases found with
      | true => exact Attentive.pure [] s₁
      | false =>
        obtain rfl : s = s₁ := by
          unfold passing at hfound
          split at hfound
          · cases hfound
          · cases hfound
            rfl
        refine (hitem s).bind fun a s₂ hread => ?_
        exact (ih _ (htakes hread) s₂ rfl).bind fun as s₃ _ => Attentive.pure (a :: as) s₃
    rwa [← manyUntil_eq htakes] at hround

end Loops

/-! ### Types -/

/-- Reads list marks behind so many that have been read. -/
def listMarksBehind (n : Nat) : Parser Nat := fun s => listMarksFrom s.stop n s.tokens

theorem listMarksBehind_eq (n : Nat) :
    listMarksBehind n = (do
      if ← optional .openBracket then
        symbol .closeBracket
        listMarksBehind (n + 1)
      else return n) := by
  funext ⟨ts, stop⟩
  cases ts with
  | nil => rfl
  | cons t ts =>
    by_cases hopen : t.lexeme = .symbol .openBracket
    · have hpassed : optional .openBracket ⟨t :: ts, stop⟩ = .ok (true, ⟨ts, stop⟩) := by
        simp only [optional, behind?, if_pos hopen]
      rw [bind_of_ok hpassed]
      change listMarksFrom stop n (t :: ts) = (symbol .closeBracket >>= fun _ => _) ⟨ts, stop⟩
      rw [listMarksFrom, if_pos hopen]
      cases hclose : symbol .closeBracket ⟨ts, stop⟩ with
      | error e => exact (bind_error.2 (.inl hclose)).symm
      | ok r =>
        obtain ⟨u, s'⟩ := r
        rw [bind_of_ok hclose]
        cases symbol_ok.1 hclose with
        | cons others =>
          cases others
          rfl
    · have hpassed : optional .openBracket ⟨t :: ts, stop⟩ = .ok (false, ⟨t :: ts, stop⟩) := by
        simp only [optional, behind?, if_neg hopen]
      rw [bind_of_ok hpassed]
      change listMarksFrom stop n (t :: ts) = _
      rw [listMarksFrom, if_neg hopen]
      rfl

theorem attentive_listMarks : Attentive listMarks := by
  have hall (n : Nat) : Attentive (listMarksBehind n) := by
    intro s
    induction hlen : s.tokens.length using Nat.strongRecOn generalizing n s with
    | ind len ih =>
      subst hlen
      rw [listMarksBehind_eq]
      refine (attentive_optional _ s).bind fun found s₁ hfound => ?_
      rcases optional_ok.1 hfound with ⟨rfl, hopen⟩ | ⟨rfl, -, -⟩
      · refine (attentive_symbol _ s₁).bind fun _ s₂ hclose => ih _ ?_ (n + 1) s₂ rfl
        have hlength := (hopen.append (symbol_ok.1 hclose)).length_eq
        simp only [List.length_append, List.length_cons, List.length_nil] at hlength
        omega
      · exact Attentive.pure n s₁
  exact hall 0

theorem attentive_typeName : Attentive typeName :=
  (attentive_word _).bind fun _ => (attentive_optional _).bind fun _ =>
    .ite ((attentive_word _).bind fun _ => .pure _) (.pure _)

theorem attentive_type : Attentive type :=
  attentive_listMarks.bind fun _ => attentive_typeName.bind fun _ => .pure _

/-! ### Parameters -/

theorem attentive_parameter (wanted : Wanted) : Attentive (parameter wanted) :=
  (attentive_word _).bind fun _ => attentive_type.bind fun _ => .pure _

theorem attentive_parameters : Attentive parameters := by
  have hothers : Attentive (manyUntil (behind? .closeParen) (do
      symbol .comma
      parameter .parameterName)) :=
    attentive_manyUntil (attentive_optional _)
      ((attentive_symbol _).bind fun _ => attentive_parameter _)
      ((reads_behind .comma (reads_parameter _)).takes behind_beginsWith)
  exact (attentive_symbol _).bind fun _ => (attentive_optional _).bind fun _ =>
    .ite (.pure _) ((attentive_parameter _).bind fun _ => hothers.bind fun _ => .pure _)

/-! ### Entries -/

theorem attentive_braced {entry : Parser α} {phrase : Phrase α} {stops : Option Lexeme → Prop}
    (hentry : Attentive entry) (hreads : Reads entry phrase stops)
    (hfirst : BeginsWith IsWord phrase) (hstop : stops (some (.symbol .semicolon))) :
    Attentive (braced entry) := by
  have hentries : Attentive (manyUntil (behind? .closeBrace) (do
      let a ← entry
      symbol .semicolon
      return a)) :=
    attentive_manyUntil (attentive_optional _)
      (hentry.bind fun _ => (attentive_symbol _).bind fun _ => .pure _)
      ((reads_before hreads hstop).takes (before_beginsWith hfirst))
  exact (attentive_symbol _).bind fun _ => hentries

theorem attentive_enumValue : Attentive enumValue := by
  refine (attentive_word _).bind fun name => (attentive_symbol _).bind fun _ => ?_
  refine attentive_located fun here l n hform => ?_
  cases hnumber : int32Of? n with
  | some number => exact .inl (.pure _)
  | none =>
    have hl : l = .integer n := by
      cases l <;> simp [Lexeme.integer?] at hform
      rw [hform]
    exact .inr ⟨_, rfl, congrArg some hl⟩

theorem attentive_field : Attentive field :=
  (attentive_word _).bind fun _ => attentive_type.bind fun _ => (attentive_integer _).bind fun _ =>
    .pure _

theorem attentive_method : Attentive method := by
  refine (attentive_word _).bind fun name => attentive_parameters.bind fun args => ?_
  refine attentive_choice
    (fun l => if l = some (.symbol .openParen) then do return ⟨name, args, ← parameters⟩
      else return ⟨name, args, []⟩)
    (fun _ => .ite (attentive_parameters.bind fun _ => .pure _) (.pure _)) fun s => ?_
  have hnext : (behind? .openParen s).isSome = true ↔ s.next = some (.symbol .openParen) := by
    rw [Option.isSome_iff_ne_none, Ne, behind?_eq_none_iff, Classical.not_not]
  exact congrFun (ite_congr (propext hnext) (fun _ => rfl) fun _ => rfl) s

/-! ### Declarations -/

theorem attentive_importSpec : Attentive importSpec := by
  refine attentive_choice
    (fun l => if (l.bind Lexeme.word?).isSome then do
        return ⟨some (← word .importAlias), ← text .importPath⟩
      else return ⟨none, ← text .importPath⟩)
    (fun _ => .ite ((attentive_word _).bind fun _ => (attentive_text _).bind fun _ => .pure _)
      ((attentive_text _).bind fun _ => .pure _)) fun s => ?_
  have hnext : s.next.bind Lexeme.word? = s.tokens.head?.bind (·.lexeme.word?) := by
    rw [TokenStream.next, Option.bind_map]
    rfl
  have hget : (get : Parser TokenStream) s = .ok (s, s) := rfl
  rw [hnext, importSpec, bind_of_ok hget]
  cases s.tokens.head?.bind (·.lexeme.word?) <;> rfl

theorem attentive_imports : Attentive imports := by
  have hgroup : Attentive (manyUntil (behind? .closeParen) importSpec) :=
    attentive_manyUntil (attentive_optional _) attentive_importSpec
      (reads_importSpec.takes isImportSpec_beginsWith)
  exact (attentive_optional _).bind fun _ =>
    .ite hgroup (attentive_importSpec.bind fun _ => .pure _)

theorem attentive_setting : Attentive setting :=
  (attentive_word _).bind fun _ => (attentive_symbol _).bind fun _ => (attentive_text _).bind fun _ =>
    (attentive_symbol _).bind fun _ => .pure _

theorem attentive_declaration : Attentive declaration := by
  refine attentive_located fun here l keyword hform => ?_
  have hl : l = .word keyword := by
    cases l <;> simp [Lexeme.word?] at hform
    rw [hform]
  have hnamed {β : Type} {body : Parser β} (wanted : Wanted) (build : String → β → Declaration)
      (hbody : Attentive body) : Attentive (do return build (← word wanted) (← body)) :=
    (attentive_word _).bind fun _ => hbody.bind fun _ => .pure _
  split_ifs
  · exact .inl (attentive_imports.bind fun _ => .pure _)
  · exact .inl (attentive_setting.bind fun _ => .pure _)
  · exact .inl (hnamed _ _ (attentive_braced attentive_enumValue reads_enumValue
      isEnumValue_beginsWith trivial))
  · exact .inl (hnamed _ _ (attentive_braced attentive_field reads_field
      isMessageField_beginsWith trivial))
  · exact .inl (hnamed _ _ (attentive_braced (attentive_parameter _) (reads_parameter _)
      isParameter_beginsWith (by simp)))
  · exact .inl (hnamed _ _ (attentive_braced attentive_method reads_method
      isMethod_beginsWith (by simp)))
  · exact .inr ⟨_, rfl, congrArg some hl⟩

/-! ### Files -/

theorem attentive_file : Attentive file :=
  (attentive_manyUntil attentive_behindEnd attentive_declaration
    (reads_declaration.takes isDeclaration_beginsWith)).bind fun _ => .pure _

end Parser

/-! ### Texts -/

/-- A text of which the tokens are known is parsed by reading them. -/
theorem parse_of_tokenize {source : String} {s : TokenStream} (h : tokenize source = .ok s) :
    parse source = (Parser.file s).map Prod.fst := by
  simp only [parse, h, bind, Except.bind]
  cases Parser.file s <;> rfl

/-- It is parsed as a tree exactly if its lexemes derive this tree. -/
theorem parse_eq_ok_iff_of_tokenize {source : String} {s : TokenStream} {f : SchemaFile}
    (h : tokenize source = .ok s) :
    parse source = .ok f ↔ Phrases.IsFile (s.tokens.map Token.lexeme) f := by
  cases hending : (readTokens source).ending with
  | error e =>
    simp only [tokenize, hending] at h
    cases h
  | ok stop =>
    simp only [tokenize, hending] at h
    cases h
    rw [parse_eq_ok_iff, hending]
    simp

/-- A file is read exactly if its lexemes derive, and to its end. -/
theorem Parser.file_eq_ok_iff {s s' : TokenStream} {f : SchemaFile} :
    Parser.file s = .ok (f, s') ↔
      s' = ⟨[], s.stop⟩ ∧ Phrases.IsFile (s.tokens.map Token.lexeme) f := by
  constructor
  · intro h
    obtain ⟨hend, ls, hpass, hfile⟩ := file_ok.1 h
    obtain ⟨n, -, rfl, -⟩ := (attentive_file s).ok h
    rw [hpass.eq_lexemes hend] at hfile
    exact ⟨congrArg (TokenStream.mk · s.stop) hend, hfile⟩
  · rintro ⟨rfl, hfile⟩
    exact file_ok.2 ⟨rfl, _, s.passes_to_end, hfile⟩

/-- **The parser accepts exactly its grammar, and refuses everything else at a place.** For the tokens
of any text:

* The text is parsed as a tree exactly if its lexemes derive this tree, so there is at most one. The
  derivation gives the imports, options and definitions each in source order, and the numbers of
  enums are those of 32 bits.
* Either they derive a tree; then the tokens are read up to the end of the file, and nothing is left.
* Or they derive none; then there is an error. It stands at one of the tokens or at the end of the
  file, and names what is found there. Nothing behind this place is looked at: with any other tokens
  behind it the error is the same. -/
theorem parse_accepts_or_refuses {source : String} {s : TokenStream}
    (h : tokenize source = .ok s) :
    let lexemes := s.tokens.map Token.lexeme
    (∀ f, parse source = .ok f ↔ Phrases.IsFile lexemes f) ∧
    (∀ f f', Phrases.IsFile lexemes f → Phrases.IsFile lexemes f' → f = f') ∧
    ((∃ f, Phrases.IsFile lexemes f ∧ parse source = .ok f ∧
        Parser.file s = .ok (f, ⟨[], s.stop⟩)) ∨
      (∀ f, ¬Phrases.IsFile lexemes f) ∧
        ∃ e i found, parse source = .error e ∧ s.places[i]? = some (found, e.position) ∧
          e.fault.Names found ∧
          ∀ t : TokenStream, t.places.take (i + 1) = s.places.take (i + 1) →
            Parser.file t = .error e) := by
  intro lexemes
  have hparse := parse_of_tokenize h
  have hderives (f : SchemaFile) : parse source = .ok f ↔ Phrases.IsFile lexemes f :=
    parse_eq_ok_iff_of_tokenize h
  refine ⟨hderives, fun f f' hf hf' => ?_, ?_⟩
  · have hboth := ((hderives f).2 hf).symm.trans ((hderives f').2 hf')
    exact Except.ok.inj hboth
  · cases hfile : Parser.file s with
    | ok r =>
      obtain ⟨rest, hf⟩ := Parser.file_eq_ok_iff.1 hfile
      exact .inl ⟨r.1, hf, (hderives r.1).2 hf,
        hfile.symm.trans (Parser.file_eq_ok_iff.2 ⟨rfl, hf⟩)⟩
    | error e =>
      rw [hfile] at hparse
      obtain ⟨n, hn, found, hplace, hnames, hagree⟩ := (Parser.attentive_file s).error hfile
      refine .inr ⟨fun f hf => ?_, e, n, found, hparse, ?_, hnames, hagree⟩
      · have hok := (hderives f).2 hf
        rw [hparse] at hok
        cases hok
      · rw [TokenStream.getElem?_places hn, hplace]

/-- A text in which the number of an enum value is too large. -/
def overflowing : String := "enum E { A = 2147483648; }"

theorem parse_accepts_or_refuses_overflowing :
    ∃ (s : TokenStream) (i : Nat), tokenize overflowing = .ok s ∧
      (∀ f, ¬Phrases.IsFile (s.tokens.map Token.lexeme) f) ∧
      s.places[i]? = some (some (.integer 2147483648), ⟨1, 14⟩) ∧
      ∀ t : TokenStream, t.places.take (i + 1) = s.places.take (i + 1) →
        Parser.file t = .error ⟨⟨1, 14⟩, .numberTooLarge 2147483648⟩ := by
  have hparse : parse overflowing = .error ⟨⟨1, 14⟩, .numberTooLarge 2147483648⟩ := by cbv
  have hok : (tokenize overflowing).isOk = true := by cbv
  obtain ⟨s, htokens⟩ : ∃ s, tokenize overflowing = .ok s := by
    cases h : tokenize overflowing with
    | ok s => exact ⟨s, rfl⟩
    | error e =>
      rw [h] at hok
      cases hok
  obtain ⟨-, -, ⟨f, -, hf, -⟩ | ⟨hnone, e, i, found, he, hplace, hnames, hagree⟩⟩ :=
    parse_accepts_or_refuses htokens
  · rw [hparse] at hf
    cases hf
  · rw [hparse] at he
    cases he
    obtain rfl : found = some (.integer 2147483648) := hnames
    exact ⟨s, i, htokens, hnone, hplace, hagree⟩

end Backwire.Schema
