import Backwire.Proofs.Package.Enforcement

/-!
# Walks over structs

A depth-first walk goes on from each node once. What it has seen behind one node counts for the
nodes beside it as well, and nothing bounds the walk but that (`Walks`). It may cut off a way to the
wanted node at a node that it has seen, so no single way tells what it finds. But a walk that has
found nothing has seen all that it was to do and all that these lead to (`Walks.closed`), and so
everything that can be reached. And it ends, since what is unseen becomes less or what is to do
becomes less, if only finitely many nodes lead on (`exists_walks`).

In a session only the structs of finished packages lead on. So the walk over their fields always
ends, whatever holds what, and answers as `Session.structReaches` does.
-/

namespace Backwire.Package

open Schema
open Relation (ReflTransGen TransGen)

/-! ### Walks -/

section Walking

variable {α : Type} {next : α → List α} {wanted : α} {seen seen' unseen todo : List α}
  {found : Bool}

/-- **A depth-first walk**: what had been seen before it, what is to do, whether the wanted node is
found, and what has been seen when it ends. -/
inductive Walks (next : α → List α) (wanted : α) : List α → List α → Bool → List α → Prop where
  /-- Nothing is left to do. -/
  | done {seen : List α} : Walks next wanted seen [] false seen
  /-- The node is wanted. -/
  | here {seen todo : List α} : Walks next wanted seen (wanted :: todo) true seen
  /-- The node has been seen. -/
  | known {seen seen' todo : List α} {a : α} {found : Bool} (ha : a ≠ wanted) (hseen : a ∈ seen)
      (h : Walks next wanted seen todo found seen') :
      Walks next wanted seen (a :: todo) found seen'
  /-- The wanted node is found behind this one. -/
  | behind {seen seen' todo : List α} {a : α} (ha : a ≠ wanted) (hnew : a ∉ seen)
      (h : Walks next wanted (a :: seen) (next a) true seen') :
      Walks next wanted seen (a :: todo) true seen'
  /-- It is not, and the walk goes on with all that has been seen there. -/
  | past {seen seen₁ seen' todo : List α} {a : α} {found : Bool} (ha : a ≠ wanted)
      (hnew : a ∉ seen) (hinner : Walks next wanted (a :: seen) (next a) false seen₁)
      (h : Walks next wanted seen₁ todo found seen') :
      Walks next wanted seen (a :: todo) found seen'

namespace Walks

/-- Nothing that has been seen is forgotten. -/
theorem subset (h : Walks next wanted seen todo found seen') : seen ⊆ seen' := by
  induction h with
  | done => exact List.Subset.refl _
  | here => exact List.Subset.refl _
  | known _ _ _ ih => exact ih
  | behind _ _ _ ih => exact List.Subset.trans (List.subset_cons_self _ _) ih
  | past _ _ _ _ ihInner ih =>
    exact List.Subset.trans (List.subset_cons_self _ _) (List.Subset.trans ihInner ih)

/-- What is found can be reached. -/
theorem reaches (h : Walks next wanted seen todo found seen') (hfound : found = true) :
    ∃ a ∈ todo, ReflTransGen (fun a b => b ∈ next a) a wanted := by
  induction h with
  | done => cases hfound
  | here => exact ⟨wanted, List.mem_cons_self, .refl⟩
  | known _ _ _ ih =>
    obtain ⟨b, hb, hway⟩ := ih hfound
    exact ⟨b, List.mem_cons_of_mem _ hb, hway⟩
  | behind _ _ _ ih =>
    obtain ⟨b, hb, hway⟩ := ih rfl
    exact ⟨_, List.mem_cons_self, .head hb hway⟩
  | past _ _ _ _ _ ih =>
    obtain ⟨b, hb, hway⟩ := ih hfound
    exact ⟨b, List.mem_cons_of_mem _ hb, hway⟩

/-- **A walk that finds nothing has seen all that it was to do**, and of each node that it came to,
all that this leads to. -/
theorem closed (h : Walks next wanted seen todo found seen') (hnot : found = false) :
    todo ⊆ seen' ∧ ∀ x ∈ seen', x ∈ seen ∨ x ≠ wanted ∧ next x ⊆ seen' := by
  induction h with
  | done => exact ⟨List.nil_subset _, fun x hx => .inl hx⟩
  | here => cases hnot
  | known _ hseen h ih =>
    obtain ⟨htodo, hclosed⟩ := ih hnot
    exact ⟨List.cons_subset.2 ⟨h.subset hseen, htodo⟩, hclosed⟩
  | behind => cases hnot
  | @past seen seen₁ seen' todo a _ ha _ hinner h ihInner ih =>
    obtain ⟨hnext, hinnerClosed⟩ := ihInner rfl
    obtain ⟨htodo, hclosed⟩ := ih hnot
    have ha₁ : a ∈ seen₁ := hinner.subset List.mem_cons_self
    refine ⟨List.cons_subset.2 ⟨h.subset ha₁, htodo⟩, fun x hx => ?_⟩
    -- seen behind the first node, or after it
    rcases hclosed x hx with hx₁ | hx
    · rcases hinnerClosed x hx₁ with hx | ⟨hne, hsub⟩
      · rcases List.mem_cons.1 hx with rfl | hx
        · exact .inr ⟨ha, List.Subset.trans hnext h.subset⟩
        · exact .inl hx
      · exact .inr ⟨hne, List.Subset.trans hsub h.subset⟩
    · exact .inr hx

/-- **A walk that starts with nothing seen decides what can be reached.** -/
theorem found_iff (h : Walks next wanted [] todo found seen') :
    found = true ↔ ∃ a ∈ todo, ReflTransGen (fun a b => b ∈ next a) a wanted := by
  refine ⟨h.reaches, ?_⟩
  rintro ⟨a, ha, hway⟩
  by_contra hnot
  obtain ⟨htodo, hclosed⟩ := h.closed (Bool.eq_false_iff.2 hnot)
  have hstep (x : α) (hx : x ∈ seen') : x ≠ wanted ∧ next x ⊆ seen' :=
    (hclosed x hx).resolve_left List.not_mem_nil
  have hseen {b : α} (hway : ReflTransGen (fun a b => b ∈ next a) a b) : b ∈ seen' := by
    induction hway with
    | refl => exact htodo ha
    | tail _ hb ih => exact (hstep _ ih).2 hb
  exact (hstep wanted (hseen hway)).1 rfl

end Walks

/-! ### Walks end -/

/-- **Every node that leads on has been seen or is among the unseen ones.** -/
def Spans (next : α → List α) (seen unseen : List α) : Prop :=
  ∀ a, next a ≠ [] → a ∈ seen ∨ a ∈ unseen

/-- More may have been seen. -/
theorem Spans.mono (h : Spans next seen unseen) (hsub : seen ⊆ seen') : Spans next seen' unseen :=
  fun a ha => (h a ha).imp_left fun hseen => hsub hseen

/-- A node that is seen is no longer unseen. -/
theorem Spans.see [DecidableEq α] (h : Spans next seen unseen) (a : α) :
    Spans next (a :: seen) (unseen.erase a) := by
  intro b hb
  by_cases hba : b = a
  · exact .inl (hba ▸ List.mem_cons_self)
  · exact (h b hb).imp (List.mem_cons_of_mem a) (List.mem_erase_of_ne hba).2

/-- **Every walk ends** if only finitely many nodes lead on. -/
theorem exists_walks [DecidableEq α] {seen unseen : List α} (wanted : α)
    (hspans : Spans next seen unseen) (todo : List α) :
    ∃ found seen', Walks next wanted seen todo found seen' := by
  match todo with
  | [] => exact ⟨_, _, .done⟩
  | a :: todo =>
    by_cases ha : a = wanted
    · subst ha
      exact ⟨_, _, .here⟩
    by_cases hseen : a ∈ seen
    · obtain ⟨found, seen', h⟩ := exists_walks wanted hspans todo
      exact ⟨_, _, .known ha hseen h⟩
    by_cases hunseen : a ∈ unseen
    · have hless : (unseen.erase a).length < unseen.length := by
        rw [List.length_erase_of_mem hunseen]
        exact Nat.sub_one_lt_of_lt (List.length_pos_of_mem hunseen)
      obtain ⟨inner, seen₁, hinner⟩ := exists_walks wanted (hspans.see a) (next a)
      cases inner with
      | true => exact ⟨_, _, .behind ha hseen hinner⟩
      | false =>
        obtain ⟨found, seen', h⟩ := exists_walks wanted ((hspans.see a).mono hinner.subset) todo
        exact ⟨_, _, .past ha hseen hinner h⟩
    · -- a node that is neither seen nor unseen leads nowhere
      have hnext : next a = [] := by
        by_contra hnext
        exact (hspans a hnext).elim hseen hunseen
      have hinner : Walks next wanted (a :: seen) (next a) false (a :: seen) := hnext ▸ .done
      have hmore := hspans.mono (List.subset_cons_self a seen)
      obtain ⟨found, seen', h⟩ := exists_walks wanted hmore todo
      exact ⟨_, _, .past ha hseen hinner h⟩
  termination_by (unseen.length, todo.length)
  decreasing_by
    · exact Prod.Lex.right _ (Nat.lt_succ_self _)
    · exact Prod.Lex.left _ _ hless
    · exact Prod.Lex.left _ _ hless
    · exact Prod.Lex.right _ (Nat.lt_succ_self _)

end Walking

/-! ### Structs -/

variable {s : Session}

/-- Only definitions of finished packages hold something. -/
theorem Session.spans_heldStructs (s : Session) : Spans s.heldStructs [] s.definitionIds := by
  intro a ha
  obtain ⟨b, hb⟩ := List.exists_mem_of_ne_nil _ ha
  exact .inr (Session.mem_heldStructs.1 hb).mem_definitionIds

/-- No struct of a session holds itself. -/
theorem Session.Reachable.not_holds_self (h : s.Reachable) (a : DefinitionId) :
    ¬ TransGen s.Holds a a := by
  intro hloop
  obtain ⟨b, ⟨d, fields, hd, hbody, -⟩, -⟩ := TransGen.head'_iff.1 hloop
  obtain ⟨c, hc, hd⟩ := Option.bind_eq_some_iff.1 hd
  exact ((h.lawful _ c hc).2 _ d fields hd hbody).2 hloop

/-- **Looking for a struct decides whether it can be reached.** The walk over the fields of structs
ends from every definition, in every session, with nothing that bounds it but what it has seen. It
answers as the session does, and the answer is whether the one definition is the other or leads to
it by fields that are structs. So after every call that compiles a package, no struct of any package
holds itself. -/
theorem structReaches_decides (s : Session) :
    (∀ a b, (∃ found seen, Walks s.heldStructs b [] [a] found seen) ∧
      ∀ found seen, Walks s.heldStructs b [] [a] found seen →
        found = s.structReaches a b ∧ (found = true ↔ ReflTransGen s.Holds a b)) ∧
    (s.Reachable → ∀ e given n s', s.attempt e given = (.ok n, s') →
      ∀ a, ¬ TransGen s'.Holds a a) := by
  refine ⟨fun a b => ⟨exists_walks b s.spans_heldStructs [a], fun found seen h => ?_⟩,
    fun h e given n s' hattempt => ?_⟩
  · have hfound : found = true ↔ ReflTransGen s.Holds a b := by
      rw [h.found_iff]
      simp only [List.mem_singleton, exists_eq_left, Session.mem_heldStructs]
    exact ⟨Bool.eq_iff_iff.2 (hfound.trans Session.structReaches_iff.symm), hfound⟩
  · have hreachable := h.attempt e given
    rw [hattempt] at hreachable
    exact hreachable.not_holds_self

/-! ### Samples -/

/-- The type of a field that is a struct. -/
def structType (name : String) (a : DefinitionId) (link? : Option Nat) : Listed TypeUse :=
  ⟨0, .named ⟨link?.map fun _ => "x", name⟩ ⟨.struct, a, link?⟩⟩

/-- Structs of two packages: `T` holds `A`, `A` and `B` hold each other, and `A` holds `D` after
`B`. -/
def Session.tangled : Session :=
  ⟨[.finished ⟨"c", .ofNames ["w", "c"],
      [⟨"m.spec", .ofNames ["w", "c", "m.spec"], [⟨"x", "x", 1⟩], []⟩],
      [⟨"T", 0, .struct [⟨"a", structType "A" ⟨0, 1⟩ none⟩]⟩,
        ⟨"A", 0, .struct
          [⟨"b", structType "B" ⟨0, 2⟩ none⟩, ⟨"d", structType "D" ⟨1, 0⟩ (some 0)⟩]⟩,
        ⟨"B", 0, .struct [⟨"a", structType "A" ⟨0, 1⟩ none⟩]⟩]⟩,
    .finished ⟨"x", .ofNames ["w", "x"], [⟨"m.spec", .ofNames ["w", "x", "m.spec"], [], []⟩],
      [⟨"D", 0, .struct [⟨"y", ⟨0, .builtin .byte⟩⟩]⟩]⟩], [("x", 1), ("c", 0)]⟩

/-- The text of a file of two structs, the second of which holds the first. -/
def nestedText : String := "struct In { a uint32; b bool; } struct Out { x In; y byte; }"

section Nested

variable {κ τ : Type}

/-- The package of this file, with the type of the field `x`. -/
def PackageOf.nested (builtin : Wire.Builtin → τ) (inner : τ) : PackageOf κ τ :=
  ⟨"c", .ofNames ["w", "c"], [⟨"m.spec", .ofNames ["w", "c", "m.spec"], [], []⟩],
    [⟨"In", 0, .struct [⟨"a", ⟨0, builtin .uint32⟩⟩, ⟨"b", ⟨0, builtin .bool⟩⟩]⟩,
      ⟨"Out", 0, .struct [⟨"x", ⟨0, inner⟩⟩, ⟨"y", ⟨0, builtin .byte⟩⟩]⟩]⟩

end Nested

/-- The session in which it has been compiled. -/
def Session.nested : Session :=
  ⟨[.finished (.nested .builtin (.named ⟨none, "In"⟩ ⟨.struct, ⟨0, 0⟩, none⟩))], [("c", 0)]⟩

theorem attempt_nested :
    Session.empty.attempt (.named nestedText) (.ofText "c") = (.ok 0, .nested) := by
  have hdraft : draft (Surroundings.named nestedText).tree (.ofNames ["w", "c"]) "c" =
      .ok (.nested .builtin (.named ⟨none, "In"⟩)) :=
    draft_of_single ⟨"m.spec", .ofNames ["w", "c", "m.spec"], nestedText⟩ rfl rfl rfl rfl
      (by cbv : parse nestedText = .ok ⟨[], [], [⟨"In", .struct [⟨"a", ⟨0, .builtin .uint32⟩⟩,
        ⟨"b", ⟨0, .builtin .bool⟩⟩]⟩, ⟨"Out", .struct [⟨"x", ⟨0, .named ⟨none, "In"⟩⟩⟩,
        ⟨"y", ⟨0, .builtin .byte⟩⟩]⟩]⟩) (by cbv)
  refine Compiles.attempt (call_named _ ▸ ?_)
  exact .fresh (p := .nested .builtin (.named ⟨none, "In"⟩)) rfl hdraft .done rfl (by cbv)

/-- The walk from `A` comes by `A` again. It does not come to `T`, which leads there, and to `D`
it comes when that is behind it. -/
theorem structReaches_decides_tangled :
    Walks Session.tangled.heldStructs ⟨0, 0⟩ [] [⟨0, 1⟩] false [⟨1, 0⟩, ⟨0, 2⟩, ⟨0, 1⟩] ∧
      Session.tangled.structReaches ⟨0, 1⟩ ⟨0, 0⟩ = false ∧
      Session.tangled.structReaches ⟨0, 1⟩ ⟨1, 0⟩ = true ∧
      ReflTransGen Session.tangled.Holds ⟨0, 1⟩ ⟨1, 0⟩ ∧
      Session.empty.attempt (.named nestedText) (.ofText "c") = (.ok 0, .nested) ∧
      Session.nested.Holds ⟨0, 1⟩ ⟨0, 0⟩ ∧ ∀ a, ¬ TransGen Session.nested.Holds a a := by
  have hA : Session.tangled.heldStructs ⟨0, 1⟩ = [⟨0, 2⟩, ⟨1, 0⟩] := rfl
  have hbehindB {wanted : DefinitionId} (hne : (⟨0, 1⟩ : DefinitionId) ≠ wanted) :
      Walks Session.tangled.heldStructs wanted [⟨0, 2⟩, ⟨0, 1⟩]
        (Session.tangled.heldStructs ⟨0, 2⟩) false [⟨0, 2⟩, ⟨0, 1⟩] :=
    .known hne (by decide) .done
  have hmiss : Walks Session.tangled.heldStructs ⟨0, 0⟩ [] [⟨0, 1⟩] false
      [⟨1, 0⟩, ⟨0, 2⟩, ⟨0, 1⟩] := by
    refine .past (by decide) (by decide) ?_ .done
    rw [hA]
    refine .past (by decide) (by decide) (hbehindB (by decide)) ?_
    exact .past (by decide) (by decide) .done .done
  have hfind : Walks Session.tangled.heldStructs ⟨1, 0⟩ [] [⟨0, 1⟩] true [⟨0, 2⟩, ⟨0, 1⟩] := by
    refine .behind (by decide) (by decide) ?_
    rw [hA]
    exact .past (by decide) (by decide) (hbehindB (by decide)) .here
  obtain ⟨hmissed, -⟩ := ((structReaches_decides .tangled).1 _ _).2 _ _ hmiss
  obtain ⟨hfound, hway⟩ := ((structReaches_decides .tangled).1 _ _).2 _ _ hfind
  refine ⟨hmiss, hmissed.symm, hfound.symm, hway.1 rfl, attempt_nested, ?_, ?_⟩
  · exact ⟨_, _, rfl, rfl, _, List.mem_cons_self, rfl⟩
  · exact (structReaches_decides .empty).2 .empty _ _ _ _ attempt_nested

end Backwire.Package
