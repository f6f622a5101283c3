import Backwire.Package.Rules
import Backwire.Proofs.Package.Growth
import Mathlib.Logic.Relation

/-!
# What structs hold

A struct holds the structs that its fields are of. `reachesFrom` looks for a node of a graph and
goes on from each node once. Where it has been is forgotten on the way, so what it finds is told by
what it may still go on from (`Way`): a way that comes by a node more than once can be cut short
behind its last visit, and then does without that node (`Way.erase`). Since only the definitions of
finished packages hold anything, that is no bound at all: `Session.structReaches` decides whether a
struct is another one or holds it, directly or in structs that it holds
(`Session.structReaches_iff`).
-/

namespace Backwire.Package

open Schema

/-! ### Searching -/

section Searching

variable {α : Type} [DecidableEq α] {next : α → List α} {wanted : α} {unseen : List α}

/-- **There is a way to `wanted`** that goes on from unseen nodes only. -/
inductive Way (next : α → List α) (wanted : α) (unseen : List α) : α → Prop where
  /-- The node is wanted. -/
  | here : Way next wanted unseen wanted
  /-- The way goes on from an unseen node. -/
  | step {a b : α} (ha : a ∈ unseen) (hb : b ∈ next a) (h : Way next wanted unseen b) :
      Way next wanted unseen a

omit [DecidableEq α] in
theorem Way.mono {more : List α} {a : α} (h : Way next wanted unseen a) (hsub : unseen ⊆ more) :
    Way next wanted more a := by
  induction h with
  | here => exact .here
  | step ha hb _ ih => exact .step (hsub ha) hb ih

/-- **A way does without a node, or behind its last visit it does.** -/
theorem Way.erase {c : α} (h : Way next wanted unseen c) (a : α) :
    ∃ b, (b = c ∨ b ∈ next a) ∧ Way next wanted (unseen.erase a) b := by
  induction h with
  | here => exact ⟨wanted, .inl rfl, .here⟩
  | @step x y hx hy _ ih =>
    obtain ⟨b, rfl | hb, h⟩ := ih
    · by_cases hxa : x = a
      · exact ⟨b, .inr (hxa ▸ hy), h⟩
      · exact ⟨x, .inl rfl, .step ((List.mem_erase_of_ne hxa).2 hx) hy h⟩
    · exact ⟨b, .inr hb, h⟩

/-- **The search finds every way**, and nothing else. -/
theorem reachesFrom_iff {todo : List α} :
    reachesFrom next wanted unseen todo = true ↔ ∃ a ∈ todo, Way next wanted unseen a := by
  fun_induction reachesFrom next wanted unseen todo with
  | case1 => simp
  | case2 unseen todo => exact ⟨fun _ => ⟨wanted, List.mem_cons_self, .here⟩, fun _ => rfl⟩
  | case3 unseen a todo hne hmem ih =>
    rw [ih]
    constructor
    · rintro ⟨b, hb, h⟩
      have h := h.mono List.erase_subset
      rcases List.mem_append.1 hb with hb | hb
      · exact ⟨a, List.mem_cons_self, .step hmem hb h⟩
      · exact ⟨b, List.mem_cons_of_mem _ hb, h⟩
    · rintro ⟨c, hc, h⟩
      -- the way starts behind `a`, or it does not start at `a`
      obtain ⟨c, hc, h⟩ : ∃ c ∈ next a ++ todo, Way next wanted unseen c := by
        rcases List.mem_cons.1 hc with rfl | hc
        · cases h with
          | here => exact absurd rfl hne
          | step _ hb h => exact ⟨_, List.mem_append_left _ hb, h⟩
        · exact ⟨c, List.mem_append_right _ hc, h⟩
      obtain ⟨b, rfl | hb, hway⟩ := h.erase a
      · exact ⟨b, hc, hway⟩
      · exact ⟨b, List.mem_append_left _ hb, hway⟩
  | case4 unseen a todo hne hmem ih =>
    rw [ih]
    constructor
    · rintro ⟨b, hb, h⟩
      exact ⟨b, List.mem_cons_of_mem _ hb, h⟩
    · rintro ⟨c, hc, h⟩
      rcases List.mem_cons.1 hc with rfl | hc
      · cases h with
        | here => exact absurd rfl hne
        | step ha => exact absurd ha hmem
      · exact ⟨c, hc, h⟩

end Searching

/-! ### Structs -/

variable {s : Session} {a b : DefinitionId}

/-- A type is that of a struct: a named one, and no list. -/
theorem structOf?_eq_some_iff {t : Listed TypeUse} {d : DefinitionId} :
    structOf? t = some d ↔ ∃ r link?, t = ⟨0, .named r ⟨.struct, d, link?⟩⟩ := by
  constructor
  · intro h
    unfold structOf? at h
    split at h
    · cases h
      exact ⟨_, _, rfl⟩
    · cases h
  · rintro ⟨r, link?, rfl⟩
    rfl

/-- **The struct `a` has a field that is of the struct `b`.** -/
def Session.Holds (s : Session) (a b : DefinitionId) : Prop :=
  ∃ d fields, s.definition? a = some d ∧ d.body = .struct fields ∧
    ∃ f ∈ fields, structOf? f.type = some b

theorem Session.mem_heldStructs : b ∈ s.heldStructs a ↔ s.Holds a b := by
  unfold heldStructs Holds
  cases s.definition? a with
  | none => simp
  | some d =>
    obtain ⟨name, file, body⟩ := d
    cases body <;> simp

theorem Session.mem_packages {p : Compiled} {i : Nat} :
    (p, i) ∈ s.packages ↔ s.package? i = some p := by
  simp only [packages, List.mem_filterMap, Prod.exists, List.mem_zipIdx_iff_getElem?,
    Option.map_eq_some_iff, Prod.mk.injEq, package?, Option.bind_eq_some_iff]
  constructor
  · rintro ⟨entry, j, hentry, q, hq, rfl, rfl⟩
    exact ⟨entry, hentry, hq⟩
  · rintro ⟨entry, hentry, hp⟩
    exact ⟨entry, i, hentry, p, hp, rfl, rfl⟩

/-- A definition that is found is one of a finished package. -/
theorem Session.mem_definitionIds {d : Declared TypeUse} (h : s.definition? a = some d) :
    a ∈ s.definitionIds := by
  obtain ⟨p, hp, hd⟩ := Option.bind_eq_some_iff.1 h
  obtain ⟨hlt, -⟩ := List.getElem?_eq_some_iff.1 hd
  refine List.mem_flatMap.2 ⟨(p, a.package), mem_packages.2 hp, ?_⟩
  exact List.mem_map.2 ⟨a.index, List.mem_range.2 hlt, rfl⟩

/-- What holds a struct is one of them. -/
theorem Session.Holds.mem_definitionIds (h : s.Holds a b) : a ∈ s.definitionIds := by
  obtain ⟨d, -, hd, -⟩ := h
  exact Session.mem_definitionIds hd

/-- **The search for a struct decides whether one struct is another or holds it**, directly or in
structs that it holds. -/
theorem Session.structReaches_iff :
    s.structReaches a b = true ↔ Relation.ReflTransGen s.Holds a b := by
  rw [structReaches, reachesFrom_iff]
  simp only [List.mem_singleton, exists_eq_left]
  constructor
  · intro h
    induction h with
    | here => exact .refl
    | step _ hb _ ih => exact .head (mem_heldStructs.1 hb) ih
  · intro h
    induction h using Relation.ReflTransGen.head_induction_on with
    | refl => exact .here
    | head hb _ ih => exact .step hb.mem_definitionIds (mem_heldStructs.2 hb) ih

end Backwire.Package
