import Backwire.Proofs.Package.Reachable
import Mathlib.Logic.Relation

/-!
# The graph of imports

The packages of a session and their imports are a graph. It has no cycle, since a package imports
only what was finished before it was itself (`Session.Acyclic.finish`). The numbers of packages do
not show this: a package is numbered when it is found, before anything that it imports. They show
the order of a walk of the graph that goes from a package to each of its imports in turn, deep
first, and counts a package when it comes to it (`Walk`).

So following imports comes to an end on every tree of files, cyclic ones included, and when it
succeeds it leaves a graph without cycles in which no import is left open
(`attempt_ends_acyclic`).
-/

namespace Backwire.Package

variable {e : Surroundings} {s s₁ s' t : Session} {task : Task} {ns : List Nat} {d : Draft}
  {c : Compiled} {i j : Nat}

/-! ### Who imports whom -/

/-- A file of package `i` has an import that has led to package `j`. -/
def Session.Imports (s : Session) (i j : Nat) : Prop :=
  ∃ p, s.package? i = some p ∧ ∃ f ∈ p.files, ∃ l ∈ f.imports, l.package = j

/-- Where the imports of a package have led to, in the order of files and of their texts. -/
def Session.importsOf (s : Session) (i : Nat) : List Nat :=
  ((s.package? i).map PackageOf.targets).getD []

/-- The imports of a package are those that lead somewhere. -/
theorem Session.mem_importsOf : j ∈ s.importsOf i ↔ s.Imports i j := by
  unfold importsOf Imports
  cases s.package? i with
  | none => simp
  | some p => simp [PackageOf.targets]

theorem Session.imports_iff :
    s.Imports i j ↔ ∃ p, s.package? i = some p ∧ ∃ l ∈ p.links, l.package = j := by
  refine exists_congr fun p => and_congr_right fun _ => ?_
  simp only [PackageOf.links, List.mem_flatMap]
  constructor
  · rintro ⟨f, hf, l, hl, h⟩
    exact ⟨l, ⟨f, hf, hl⟩, h⟩
  · rintro ⟨l, ⟨f, hf, hl⟩, h⟩
    exact ⟨f, hf, l, hl, h⟩

/-- No package imports itself, directly or through others. -/
def Session.Acyclic (s : Session) : Prop := ∀ i, ¬ Relation.TransGen s.Imports i i

namespace Session.Acyclic

theorem empty : Session.empty.Acyclic := by
  intro i h
  obtain ⟨j, -, p, hp, -⟩ := Relation.TransGen.tail'_iff.1 h
  cases hp

/-- A package that is started imports nothing yet. -/
theorem start (h : s.Acyclic) (d : Draft) : (s.start d).Acyclic := by
  have himports : (s.start d).Imports = s.Imports := by
    funext i j
    rw [Imports, package?_start, Imports]
  intro i
  rw [himports]
  exact h i

/-- **A package is finished after all that it imports**: nothing leads to it yet, so a way that does
not start at it never comes by it. -/
theorem finish (h : s.Acyclic) (hs : s.Sound) (hi : s.entries[i]? = some (.started d))
    (hlinks : ∀ l ∈ c.links, ∃ q, s.package? l.package = some q ∧ q.id = l.id) :
    (s.finish i c).Acyclic := by
  have hlt := (List.getElem?_eq_some_iff.1 hi).1
  have hback {a : Nat} : ¬ (s.finish i c).Imports a i := by
    intro ha
    obtain ⟨p, hp, l, hl, hto⟩ := imports_iff.1 ha
    obtain ⟨q, hq, -⟩ := hs.link_finish hi hlinks hp hl
    rw [hto, package?_eq_some_iff, hi] at hq
    cases hq
  have hold {a b : Nat} (ha : a ≠ i) (hab : (s.finish i c).Imports a b) : s.Imports a b := by
    rw [Imports, package?_finish hlt, if_neg ha] at hab
    exact hab
  -- every edge of such a way but the first starts where one ends, which is not at `i`
  have hway {a b : Nat} (ha : a ≠ i) (hab : Relation.TransGen (s.finish i c).Imports a b) :
      Relation.TransGen s.Imports a b := by
    induction hab with
    | single hab => exact .single (hold ha hab)
    | tail hab hbc ih =>
      refine .tail ih (hold ?_ hbc)
      rintro rfl
      obtain ⟨a', -, hlast⟩ := Relation.TransGen.tail'_iff.1 hab
      exact hback hlast
  intro k hk
  refine h k (hway ?_ hk)
  rintro rfl
  obtain ⟨a', -, hlast⟩ := Relation.TransGen.tail'_iff.1 hk
  exact hback hlast

end Session.Acyclic

/-- **Compiling closes no cycle.** -/
theorem Compiles.acyclic (h : Compiles e s task ns s') (hs : s.Sound) (hacyclic : s.Acyclic) :
    s'.Acyclic := by
  induction h with
  | known => exact hacyclic
  | @fresh s s₁ s' directory id from? d p hnew hdraft himports hlinks hconclude ih =>
    obtain ⟨c, rfl, -, -, hfiles⟩ := conclude_drafted hdraft hlinks hconclude
    obtain ⟨rfl, -, -⟩ := draft_ok hdraft
    have hstart := hs.start hnew
    obtain ⟨hsound, hyields⟩ := himports.sound hstart
    exact (ih hstart (hacyclic.start d)).finish hsound himports.started
      (hyields.links hlinks hfiles)
  | done => exact hacyclic
  | next _ hpackage _ ihPackage ihRest =>
    exact ihRest (hpackage.sound hs).1 (ihPackage hs hacyclic)

theorem Session.Reachable.acyclic (h : s.Reachable) : s.Acyclic :=
  h.keeps .empty fun hs hcompiles => hcompiles.acyclic hs.settled.toSound

/-! ### The order in which packages are found -/

/-- **A walk of a graph**, deep first and in pre-order. It starts when the nodes in the first list
have been visited, is to come by those in the second, and the third is what has been visited in the
end, in the order of the visits. `next` are the nodes that come after a node. -/
inductive Walk (next : Nat → List Nat) : List Nat → List Nat → List Nat → Prop where
  /-- There is nothing left to come by. -/
  | done {seen : List Nat} : Walk next seen [] seen
  /-- A node that has been visited is not visited again. -/
  | skip {seen rest out : List Nat} {n : Nat} (h : n ∈ seen) (hrest : Walk next seen rest out) :
      Walk next seen (n :: rest) out
  /-- A node is visited, those that come after it are next, and then the others. -/
  | visit {seen mid rest out : List Nat} {n : Nat} (h : n ∉ seen)
      (hnext : Walk next (seen ++ [n]) (next n) mid) (hrest : Walk next mid rest out) :
      Walk next seen (n :: rest) out

/-- A walk by one node goes on with the others. -/
theorem Walk.cons {next : Nat → List Nat} {seen mid rest out : List Nat} {n : Nat}
    (h : Walk next seen [n] mid) (hrest : Walk next mid rest out) :
    Walk next seen (n :: rest) out := by
  cases h with
  | skip h hdone =>
    cases hdone
    exact .skip h hrest
  | visit h hnext hdone =>
    cases hdone
    exact .visit h hnext hrest

/-- **Packages are numbered as a walk of their imports comes to them.** The imports of a package are
those it has when it is finished, in any later session `t`. -/
theorem Compiles.walk (h : Compiles e s task ns s')
    (ht : ∀ i p, s'.package? i = some p → t.package? i = some p) :
    Walk t.importsOf (List.range s.entries.length) ns (List.range s'.entries.length) := by
  induction h with
  | known h =>
    obtain ⟨-, hfinished⟩ := Session.finished?_eq_some_iff.1 h
    obtain ⟨c, hc⟩ := Option.isSome_iff_exists.1 hfinished
    exact .skip (List.mem_range.2 (Session.lt_length_of_package? hc)) .done
  | @fresh s s₁ s' directory id from? d p hnew hdraft himports hlinks hconclude ih =>
    obtain ⟨c, rfl, -, -, hfiles⟩ := conclude_drafted hdraft hlinks hconclude
    have hstarted := himports.started
    have hc : t.package? s.entries.length = some c := by
      refine ht _ _ ?_
      rw [Session.package?_finish (List.getElem?_eq_some_iff.1 hstarted).1, if_pos rfl]
    have hnext : t.importsOf s.entries.length = p.targets := by
      rw [Session.importsOf, hc]
      change c.files.flatMap _ = p.files.flatMap _
      rw [hfiles]
    -- what the walk comes by next is what the package has been started to follow
    have hwalk := ih fun i q hq => ht i q (Session.package?_finish_of_some hstarted hq)
    rw [Session.length_start, List.range_succ, ← hnext] at hwalk
    rw [Session.length_finish]
    exact .visit (fun h => Nat.lt_irrefl _ (List.mem_range.1 h)) hwalk .done
  | done => exact .done
  | next _ _ hrest ihPackage ihRest =>
    exact (ihPackage fun i q hq => ht i q (hrest.grows.package? hq)).cons (ihRest ht)

/-! ### Calls -/

/-- What the rules lead to. -/
def Ends (e : Surroundings) (s : Session) (task : Task) :
    Except CompileError (List Nat) × Session → Prop
  | (.ok ns, s') => Compiles e s task ns s'
  | (.error err, s') => Fails e s task err s'

theorem Ends.unique {r r' : Except CompileError (List Nat) × Session} (h : Ends e s task r)
    (h' : Ends e s task r') : r = r' := by
  obtain ⟨_ | ns, s'⟩ := r <;> obtain ⟨_ | ns', s''⟩ := r'
  · obtain ⟨rfl, rfl⟩ := Fails.unique h h'
    rfl
  · exact absurd h (Compiles.not_fails h')
  · exact absurd h' (Compiles.not_fails h)
  · obtain ⟨rfl, rfl⟩ := Compiles.unique h h'
    rfl

/-- **Following imports comes to an end, in a graph without cycles.** From every session that calls
lead to, and whatever the files import, the rules have exactly one finite derivation. If it yields a
package, no package of the session imports itself, directly or through others; every import has led
to a package of the ID it asks for; the packages stand in the order in which a walk that starts at
the package and goes on to what each imports comes to them, each once; and the new ones have their
files in the order of names and their imports in the order of the source. -/
theorem attempt_ends_acyclic (h : s.Reachable) (e : Surroundings) (given : Path) :
    (∃! r, Ends e s (e.call given) r) ∧
      match s.attempt e given with
      | (.error err, _) => ∃ s', Ends e s (e.call given) (.error err, s')
      | (.ok n, s') =>
        Ends e s (e.call given) (.ok [n], s') ∧ s'.Acyclic ∧
          (∀ i p, s'.package? i = some p → ∀ f ∈ p.files, ∀ l ∈ f.imports,
            ∃ q, s'.package? l.package = some q ∧ q.id = l.id) ∧
          (∀ i j, j ∈ s'.importsOf i ↔ s'.Imports i j) ∧
          Walk s'.importsOf (List.range s.entries.length) [n] (List.range s'.entries.length) ∧
          s'.ids.Nodup ∧ ∀ i, s.entries.length ≤ i → i < s'.entries.length →
            ∃ p, s'.package? i = some p ∧ p.InOrder e.tree := by
  rcases attempt_cases s e given with ⟨n, s', hattempt, h'⟩ | ⟨err, s', hattempt, h'⟩
  · have hends : Ends e s (e.call given) (.ok [n], s') := h'
    have hsound := (h'.sound h.settled.toSound).1
    rw [hattempt]
    refine ⟨⟨_, hends, fun r hr => hr.unique hends⟩, hends, ?_, fun i p hp f hf l hl => ?_,
      fun _ _ => s'.mem_importsOf, h'.walk fun i p hp => hp, (h.settled.compiles h').1.nodup_ids,
      fun i hle hlt => ?_⟩
    · exact h'.acyclic h.settled.toSound h.acyclic
    · exact hsound.linked i p hp l (List.mem_flatMap.2 ⟨f, hf, hl⟩)
    · obtain ⟨p, hp, hmade⟩ := h'.made hle hlt
      exact ⟨p, hp, hmade.inOrder⟩
  · have hends : Ends e s (e.call given) (.error err, s') := h'
    rw [hattempt]
    exact ⟨⟨_, hends, fun r hr => hr.unique hends⟩, s', hends⟩

theorem attempt_ends_acyclic_sample :
    Session.empty.Reachable ∧ Session.empty.attempt .sample (.ofText "c") = (.ok 0, .sample) ∧
      Session.sample.Acyclic ∧ Walk Session.sample.importsOf [] [0] [0, 1] := by
  obtain ⟨-, h⟩ := attempt_ends_acyclic .empty .sample (.ofText "c")
  rw [attempt_sample] at h
  obtain ⟨-, hacyclic, -, -, hwalk, -⟩ := h
  exact ⟨.empty, attempt_sample, hacyclic, hwalk⟩

end Backwire.Package
