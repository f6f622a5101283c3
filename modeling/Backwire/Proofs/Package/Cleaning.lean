import Backwire.Package.Compile
import Backwire.Proofs.Package.Paths
import Mathlib.Logic.Relation

/-!
# What cleaning makes of a path

Steps of a path that lead nowhere can be taken out of it one by one (`Path.Shortens`). Cleaning does
this until none is left: a clean path is one that the path is shortened to (`Path.shortens_clean`),
and it has nothing but names behind steps back, with no step back from the root
(`Path.clean_normal`). In whichever order steps are taken out, what is left cleans the same
(`Path.Shortens.clean_eq`), and that is why cleaning twice changes nothing and the start of a path
may be cleaned before the rest is added to it.

The ID of a directory below an import root is the way to it from that root, written with slashes
(`TakesId`). Going that way from the root leads to the directory again, and an import path that is
such an ID asks for it as it is (`TakesId.leads_back`). All of this is said in `clean_normalizes`.

Cleaning and joining never look into a name, so for them a name can be any string at all. Only where
paths are read from texts are names what stands between two slashes (`Path.Proper`).
-/

namespace Backwire.Package

open Relation

variable {p q directory root way : Path} {roots : List Path} {id : String}

namespace Path

/-! ### Steps that lead nowhere -/

/-- **Steps that lead nowhere are taken out of a path.** -/
inductive Shortens : Path → Path → Prop where
  /-- A step that stays in place. -/
  | here (b : Bool) (before after : List Step) :
      Shortens ⟨b, before ++ .here :: after⟩ ⟨b, before ++ after⟩
  /-- A name and the step back out of it. -/
  | back (b : Bool) (before : List Step) (n : String) (after : List Step) :
      Shortens ⟨b, before ++ .name n :: .up :: after⟩ ⟨b, before ++ after⟩
  /-- A step back from the root. -/
  | root (after : List Step) : Shortens ⟨true, .up :: after⟩ ⟨true, after⟩

namespace Shortens

/-- What is taken out does not count when the path is cleaned. -/
theorem clean_eq (h : Shortens p q) : p.clean = q.clean := by
  cases h with
  | here b before after =>
    rw [clean, clean, List.foldl_append, List.foldl_append]
    rfl
  | back b before n after =>
    rw [clean, clean, List.foldl_append, List.foldl_append]
    rfl
  | root after => rfl

/-- What is left is among the steps of the path, in their order. -/
theorem sublist (h : Shortens p q) : q.steps.Sublist p.steps := by
  cases h with
  | here b before after => exact (List.sublist_cons_self _ _).append_left _
  | back b before n after =>
    exact ((List.sublist_cons_self _ _).trans (List.sublist_cons_self _ _)).append_left _
  | root after => exact List.sublist_cons_self _ _

/-- Steps can be taken out before a relative path is added. -/
theorem join (h : Shortens p q) (hway : way.isAbsolute = false) :
    Shortens (p.join way) (q.join way) := by
  have hjoin (b : Bool) (steps : List Step) : (⟨b, steps⟩ : Path).join way =
      ⟨b, steps ++ way.steps⟩ := by simp [Path.join, hway]
  cases h with
  | here b before after =>
    rw [hjoin, hjoin, List.append_assoc, List.append_assoc]
    exact .here b before _
  | back b before n after =>
    rw [hjoin, hjoin, List.append_assoc, List.append_assoc]
    exact .back b before n _
  | root after =>
    rw [hjoin, hjoin]
    exact .root _

end Shortens

theorem clean_eq_of_shortens (h : ReflTransGen Shortens p q) : p.clean = q.clean := by
  induction h with
  | refl => rfl
  | tail _ hstep ih => exact ih.trans hstep.clean_eq

theorem sublist_of_shortens (h : ReflTransGen Shortens p q) : q.steps.Sublist p.steps := by
  induction h with
  | refl => exact .refl _
  | tail _ hstep ih => exact hstep.sublist.trans ih

/-- Whatever is on the stack, a step is taken onto it or shortens the path that it stands for. -/
theorem shortens_reduce (b : Bool) (stack : List Step) (s : Step) (steps : List Step) :
    ReflTransGen Shortens ⟨b, stack.reverse ++ s :: steps⟩
      ⟨b, (reduce b stack s).reverse ++ steps⟩ := by
  have hpush (s : Step) : stack.reverse ++ s :: steps = (s :: stack).reverse ++ steps := by simp
  cases s with
  | here => exact .single (.here b stack.reverse steps)
  | name n => rw [hpush]; exact .refl
  | up =>
    cases stack with
    | nil =>
      cases b with
      | false => exact .refl
      | true => exact .single (.root steps)
    | cons top rest =>
      cases top with
      | name n =>
        rw [List.reverse_cons, List.append_assoc]
        exact .single (.back b rest.reverse n steps)
      | here => rw [hpush]; exact .refl
      | up => rw [hpush]; exact .refl

/-- **A path is shortened to the clean one.** -/
theorem shortens_clean (p : Path) : ReflTransGen Shortens p p.clean := by
  -- what has been gone through is on the stack, and what is left stands behind it
  have hfoldl (steps stack : List Step) :
      ReflTransGen Shortens ⟨p.isAbsolute, stack.reverse ++ steps⟩
        ⟨p.isAbsolute, (steps.foldl (reduce p.isAbsolute) stack).reverse⟩ := by
    induction steps generalizing stack with
    | nil => rw [List.append_nil]; exact .refl
    | cons s steps ih => exact (shortens_reduce _ stack s steps).trans (ih _)
  exact hfoldl p.steps []

/-- **Cleaning a clean path changes nothing.** -/
theorem clean_clean (p : Path) : p.clean.clean = p.clean :=
  (clean_eq_of_shortens (shortens_clean p)).symm

/-- **Where a path starts may be cleaned first.** -/
theorem clean_join (p q : Path) : (p.join q).clean = (p.clean.join q).clean := by
  cases hq : q.isAbsolute with
  | true => rw [join, join, if_pos hq, if_pos hq]
  | false =>
    exact clean_eq_of_shortens ((shortens_clean p).lift (·.join q) fun _ _ h => h.join hq)

/-! ### Normal form -/

/-- **No step of a path leads nowhere.** -/
structure Normal (p : Path) : Prop where
  /-- No step stays in place. -/
  here_notMem : Step.here ∉ p.steps
  /-- Steps back are only at the front. -/
  ups_lead : ∃ ups rest, p.steps = List.replicate ups .up ++ rest ∧ Step.up ∉ rest
  /-- From the root there are none. -/
  up_notMem : p.isAbsolute → Step.up ∉ p.steps

/-- The stacks that cleaning works on: names on top of steps back, of which the root has none. -/
inductive Stacked (b : Bool) : List Step → Prop where
  | ups (n : Nat) (hroot : b = true → n = 0) : Stacked b (List.replicate n .up)
  | name (n : String) {stack : List Step} (h : Stacked b stack) : Stacked b (.name n :: stack)

namespace Stacked

variable {b : Bool} {stack : List Step}

/-- A step keeps names on top of steps back. -/
theorem reduce (h : Stacked b stack) (s : Step) : Stacked b (reduce b stack s) := by
  cases s with
  | here => exact h
  | name n => exact .name n h
  | up =>
    cases h with
    | name n h => exact h
    | ups n hroot =>
      cases b with
      | true => rw [hroot rfl]; exact .ups 0 fun _ => rfl
      | false =>
        have hup : Path.reduce false (List.replicate n .up) .up = List.replicate (n + 1) .up := by
          cases n <;> rfl
        rw [hup]
        exact .ups (n + 1) fun h => absurd h Bool.false_ne_true

theorem foldl (h : Stacked b stack) (steps : List Step) :
    Stacked b (steps.foldl (Path.reduce b) stack) := by
  induction steps generalizing stack with
  | nil => exact h
  | cons s steps ih => exact ih (h.reduce s)

theorem normal (h : Stacked b stack) : Normal ⟨b, stack.reverse⟩ := by
  induction h with
  | ups n hroot =>
    refine ⟨by simp, ⟨n, [], by simp, List.not_mem_nil⟩, fun hb => ?_⟩
    simp [hroot hb]
  | name n h ih =>
    obtain ⟨hhere, ⟨ups, rest, hsteps, hrest⟩, hup⟩ := ih
    refine ⟨by simpa using hhere, ⟨ups, rest ++ [.name n], ?_, by simpa using hrest⟩, ?_⟩
    · change List.reverse _ = _ at hsteps
      rw [List.reverse_cons, hsteps, List.append_assoc]
    · simpa using hup

end Stacked

/-- **A clean path is in normal form.** -/
theorem clean_normal (p : Path) : p.clean.Normal :=
  ((Stacked.ups 0 fun _ => rfl).foldl p.steps).normal

/-- No step can be taken out of a path in normal form. -/
theorem Normal.not_shortens (h : p.Normal) : ¬ Shortens p q := by
  intro hstep
  obtain ⟨hhere, ⟨ups, rest, hsteps, hrest⟩, hup⟩ := h
  cases hstep with
  | here b before after => exact hhere (List.mem_append_right _ List.mem_cons_self)
  | root after => exact hup rfl List.mem_cons_self
  | back b before n after =>
    -- the name is one of the steps back at the front, or the step back behind it is one of the rest
    rcases List.append_eq_append_iff.1 hsteps with ⟨more, hups, hmore⟩ | ⟨more, -, hmore⟩
    · cases more with
      | nil =>
        rw [List.nil_append] at hmore
        exact hrest (hmore ▸ List.mem_cons_of_mem _ List.mem_cons_self)
      | cons s more =>
        obtain ⟨rfl, -⟩ := List.cons.inj hmore
        have hmem : Step.name n ∈ List.replicate ups Step.up :=
          hups ▸ List.mem_append_right _ List.mem_cons_self
        exact Step.noConfusion (List.eq_of_mem_replicate hmem)
    · exact hrest (hmore ▸ List.mem_append_right _ (List.mem_cons_of_mem _ List.mem_cons_self))

/-- **Exactly the paths in normal form are clean already.** -/
theorem clean_eq_self_iff : p.clean = p ↔ p.Normal := by
  constructor
  · intro h
    exact h ▸ clean_normal p
  · intro h
    rcases (shortens_clean p).cases_head with heq | ⟨q, hq, -⟩
    · exact heq.symm
    · exact absurd hq h.not_shortens

/-- **A clean path from the root has names only**, which are names of the path. -/
theorem clean_steps (h : p.isAbsolute) {s : Step} (hs : s ∈ p.clean.steps) :
    (∃ n, s = .name n) ∧ s ∈ p.steps := by
  refine ⟨?_, (sublist_of_shortens (shortens_clean p)).subset hs⟩
  cases s with
  | here => exact absurd hs p.clean_normal.here_notMem
  | up => exact absurd hs (p.clean_normal.up_notMem h)
  | name n => exact ⟨n, rfl⟩

/-- Among names is no step of another kind. -/
theorem notMem_of_names {steps : List Step} (h : ∀ s ∈ steps, ∃ n, s = .name n) {s : Step}
    (hs : s.name? = none) : s ∉ steps := by
  intro hmem
  obtain ⟨n, rfl⟩ := h s hmem
  cases hs

/-- A path of names is clean. -/
theorem clean_of_names (h : ∀ s ∈ p.steps, ∃ n, s = .name n) : p.clean = p := by
  have hup : Step.up ∉ p.steps := notMem_of_names h rfl
  exact clean_eq_self_iff.2 ⟨notMem_of_names h rfl, ⟨0, p.steps, rfl, hup⟩, fun _ => hup⟩

/-! ### Written out and read again -/

theorem Proper.clean (h : p.Proper) : p.clean.Proper := fun s hs =>
  h s ((sublist_of_shortens (shortens_clean p)).subset hs)

/-- A slash in front makes a path one from the root. -/
theorem ofText_slash (text : String) :
    ofText ("/" ++ text) = ⟨true, .here :: (ofText text).steps⟩ := by
  simp [ofText, Text.segments, Text.split, Step.ofText]

/-- **A path that is written out and read again cleans the same.** -/
theorem clean_ofText_text (h : p.Proper) : (ofText p.text).clean = p.clean := by
  obtain ⟨b, steps⟩ := p
  by_cases hne : steps = []
  · subst hne
    cases b <;> cbv
  · have hread : ofText (slashed ⟨b, steps⟩) = ⟨false, steps⟩ :=
      ofText_slashed (p := ⟨false, steps⟩) h rfl hne
    cases b with
    | false => exact congrArg Path.clean hread
    | true =>
      have htext : ofText (text ⟨true, steps⟩) = ⟨true, .here :: steps⟩ := by
        change ofText ("/" ++ slashed ⟨true, steps⟩) = _
        rw [ofText_slash, hread]
      rw [htext]
      exact (Shortens.here true [] steps).clean_eq

end Path

/-! ### IDs that are ways -/

/-- An import path of steps that lead on is the ID that it asks for. -/
theorem importId_slashed (h : p.Proper) (hhere : Step.here ∉ p.steps) :
    importId p.slashed = p.slashed := by
  by_cases hne : p.steps = []
  · have hempty : p.slashed = "" := by rw [Path.slashed, hne]; rfl
    rw [hempty]
    rfl
  · have htexts : Text.segments '/' p.slashed = p.steps.map Step.text :=
      Text.segments_joined (by simpa using hne)
        (List.forall_mem_map.2 fun s hs => (h s hs).noSlash)
    have hkept : (p.steps.map Step.text).filter (fun t => t ≠ "" ∧ t ≠ ".") =
        p.steps.map Step.text := by
      refine List.filter_eq_self.2 (List.forall_mem_map.2 fun s hs => ?_)
      have hdot : s.text ≠ "." := by
        intro hdot
        have hs' : s = .here := by rw [← (h s hs).ofText, hdot]; rfl
        exact hhere (hs' ▸ hs)
      simpa using ⟨(h s hs).text_ne, hdot⟩
    rw [importId, htexts, hkept, Path.slashed]

/-- **Going the way from a root to a directory below it leads to the directory.** -/
theorem Path.clean_join_way (hnames : ∀ s ∈ directory.steps, ∃ n, s = .name n)
    (hproper : directory.Proper) (hway : directory.within? root = some way)
    (hsteps : way.steps ≠ []) :
    way.slashed ≠ "" ∧ (root.join (.ofText way.slashed)).clean = directory := by
  obtain ⟨hrelative, hsame, hplace⟩ := within?_eq_some_iff.1 hway
  have hmem {s : Step} (hs : s ∈ way.steps) : s ∈ directory.steps :=
    hplace ▸ List.mem_append_right _ hs
  have hread : ofText way.slashed = way :=
    ofText_slashed (fun s hs => hproper s (hmem hs)) hrelative hsteps
  constructor
  · intro hempty
    rw [hempty] at hread
    have hhere : Step.here ∈ way.steps := by
      rw [← hread]
      exact List.mem_cons_self
    exact notMem_of_names hnames rfl (hmem hhere)
  · have hback : root.join way = directory := by
      rw [join, if_neg (by simp [hrelative]), ← hsame, ← hplace]
    rw [hread, hback]
    exact clean_of_names hnames

/-- **The ID that a directory takes from an import root**: the way to it from the first of the roots
from which a way leads on to it. -/
inductive TakesId (directory : Path) : List Path → Path → String → Prop where
  /-- A way leads on from the first root. -/
  | here {root way : Path} {roots : List Path} (hway : directory.within? root = some way)
      (hne : way.slashed ≠ "") : TakesId directory (root :: roots) root way.slashed
  /-- No way leads on from the first root, and a later one counts. -/
  | later {first root : Path} {roots : List Path} {id : String}
      (hnone : ∀ way, directory.within? first = some way → way.slashed = "")
      (h : TakesId directory roots root id) : TakesId directory (first :: roots) root id

namespace TakesId

theorem exists_way (h : TakesId directory roots root id) :
    root ∈ roots ∧ ∃ way, directory.within? root = some way ∧ way.slashed = id ∧ id ≠ "" := by
  induction h with
  | here hway hne => exact ⟨List.mem_cons_self, _, hway, rfl, hne⟩
  | later _ _ ih => exact ih.imp_left (List.mem_cons_of_mem _)

/-- It is the first ID that a search for one through the roots finds. -/
theorem findSome?_eq {f : Path → Option String} (h : TakesId directory roots root id)
    (hnone : ∀ root, directory.within? root = none → f root = none)
    (hsome : ∀ root way, directory.within? root = some way →
      f root = if way.slashed ≠ "" then some way.slashed else none) :
    roots.findSome? f = some id := by
  induction h with
  | here hway hne => rw [List.findSome?_cons, hsome _ _ hway, if_pos hne]
  | @later first root roots id hlater _ ih =>
    have hfirst : f first = none := by
      cases hway : directory.within? first with
      | none => exact hnone first hway
      | some way => rw [hsome first way hway, if_neg (not_not.2 (hlater way hway))]
    rw [List.findSome?_cons, hfirst, ih]

/-- **The ID leads back from the root to the directory**, and an import of it asks for itself. -/
theorem leads_back (h : TakesId directory roots root id)
    (hnames : ∀ s ∈ directory.steps, ∃ n, s = .name n) (hproper : directory.Proper) :
    (root.join (.ofText id)).clean = directory ∧ importId id = id := by
  obtain ⟨-, way, hway, rfl, hne⟩ := h.exists_way
  obtain ⟨-, -, hplace⟩ := Path.within?_eq_some_iff.1 hway
  have hmem {s : Step} (hs : s ∈ way.steps) : s ∈ directory.steps :=
    hplace ▸ List.mem_append_right _ hs
  have hsteps : way.steps ≠ [] := fun hnil => hne (by rw [Path.slashed, hnil]; rfl)
  obtain ⟨-, hback⟩ := Path.clean_join_way hnames hproper hway hsteps
  have hhere : Step.here ∉ way.steps := fun hs => Path.notMem_of_names hnames rfl (hmem hs)
  exact ⟨hback, importId_slashed (fun s hs => hproper s (hmem hs)) hhere⟩

/-- **It is the ID of the package that is in the directory.** -/
theorem packageId {e : Surroundings} {given : Path}
    (h : TakesId (e.absolute given) e.roots root id) : e.packageId given = id := by
  unfold Surroundings.packageId
  simp only
  rw [h.findSome?_eq]
  · intro root hway
    simp only [hway]
  · intro root way hway
    simp only [hway]

end TakesId

/-- A directory takes an ID from one of the roots if a way leads on from any. -/
theorem exists_takesId (hroot : root ∈ roots) (hway : directory.within? root = some way)
    (hne : way.slashed ≠ "") : ∃ root id, TakesId directory roots root id := by
  induction roots with
  | nil => cases hroot
  | cons first roots ih =>
    by_cases hfirst : ∃ way, directory.within? first = some way ∧ way.slashed ≠ ""
    · obtain ⟨way, hway, hne⟩ := hfirst
      exact ⟨first, _, .here hway hne⟩
    · have hnone (way : Path) (hway : directory.within? first = some way) : way.slashed = "" :=
        not_not.1 fun hne => hfirst ⟨way, hway, hne⟩
      rcases List.mem_cons.1 hroot with rfl | hroot
      · exact absurd ⟨way, hway, hne⟩ hfirst
      · obtain ⟨root, id, h⟩ := ih hroot
        exact ⟨root, id, .later hnone h⟩

namespace Surroundings

/-- A clean path from the root stands for itself. -/
theorem absolute_of_clean (e : Surroundings) (h : p.isAbsolute) (hclean : p.clean = p) :
    e.absolute p = p := by
  rw [absolute, Path.join, if_pos h, hclean]

/-- **Any clean directory and any clean import roots can be given.** -/
theorem exists_of_clean (h : directory.isAbsolute) (hclean : directory.clean = directory)
    (hroots : ∀ root ∈ roots, root.isAbsolute ∧ root.clean = root) (hne : roots ≠ []) :
    ∃ (e : Surroundings) (given : Path), e.absolute given = directory ∧ e.roots = roots := by
  let e : Surroundings := ⟨⟨[]⟩, .root, roots⟩
  refine ⟨e, directory, e.absolute_of_clean h hclean, ?_⟩
  rw [Surroundings.roots, if_neg hne]
  refine (List.map_congr_left fun root hroot => ?_).trans (List.map_id roots)
  exact e.absolute_of_clean (hroots root hroot).1 (hroots root hroot).2

end Surroundings

/-- **Cleaning is a normal form that joining respects, and IDs lead back to directories.** A clean
path is what is left of a path when steps that lead nowhere are taken out, and it is in normal form:
no step stays in place, steps back are at the front of a relative path only. Cleaning it again
changes nothing, also if it is written out and read in between. A path from a place is cleaned to
the same, whether the place is clean already or not. And where a clean directory takes its ID from
a clean import root, the ID leads back from the root to the directory, and an import of it asks for
the same ID. That is the ID of the package in the directory, by whatever path it is given. -/
theorem clean_normalizes :
    (∀ p : Path, p.clean.Normal ∧ p.clean.clean = p.clean ∧ ReflTransGen Path.Shortens p p.clean) ∧
    (∀ text, (Path.ofText (Path.ofText text).clean.text).clean = (Path.ofText text).clean) ∧
    (∀ root q : Path, (root.join q).clean = (root.clean.join q).clean) ∧
    ∀ (directory : Path) (roots : List Path), directory.isAbsolute → directory.clean = directory →
      directory.Proper → (∀ root ∈ roots, root.isAbsolute ∧ root.clean = root) →
      ∀ root id, TakesId directory roots root id →
        (root.join (.ofText id)).clean = directory ∧ importId id = id ∧
        (∃ (e : Surroundings) (given : Path), e.absolute given = directory ∧ e.roots = roots) ∧
        ∀ (e : Surroundings) (given : Path), e.absolute given = directory → e.roots = roots →
          e.packageId given = id := by
  refine ⟨fun p => ⟨p.clean_normal, p.clean_clean, p.shortens_clean⟩, fun text => ?_,
    Path.clean_join, fun directory roots habsolute hclean hproper hroots root id htakes => ?_⟩
  · rw [Path.clean_ofText_text (Path.proper_ofText text).clean, Path.clean_clean]
  · have hnames : ∀ s ∈ directory.steps, ∃ n, s = .name n := fun s hs =>
      (Path.clean_steps habsolute (hclean.symm ▸ hs)).1
    obtain ⟨hback, himport⟩ := htakes.leads_back hnames hproper
    have hne : roots ≠ [] := List.ne_nil_of_mem htakes.exists_way.1
    refine ⟨hback, himport, Surroundings.exists_of_clean habsolute hclean hroots hne, ?_⟩
    rintro e given rfl rfl
    exact htakes.packageId

/-- Import roots that are a directory, beside it and above it. -/
def Surroundings.layered : Surroundings where
  tree := ⟨[]⟩
  workingDirectory := .ofText "/w/s"
  importPaths := [.ofText "geo", .ofText "../x", .ofText ".."]

theorem takesId_layered :
    TakesId (Surroundings.layered.absolute (.ofText "./geo//../geo/")) Surroundings.layered.roots
      (Path.ofText "/w").clean "s/geo" := by
  have hdirectory : Surroundings.layered.absolute (.ofText "./geo//../geo/") =
      ⟨true, [.name "w", .name "s", .name "geo"]⟩ := by cbv
  have hroots : Surroundings.layered.roots = [⟨true, [.name "w", .name "s", .name "geo"]⟩,
      ⟨true, [.name "w", .name "x"]⟩, (Path.ofText "/w").clean] := by cbv
  have hid : Path.slashed ⟨false, [.name "s", .name "geo"]⟩ = "s/geo" := by cbv
  rw [hdirectory, hroots, ← hid]
  refine .later (fun way hway => ?_) (.later (fun way hway => ?_) (.here ?_ ?_))
  · cases (hway : some ⟨false, []⟩ = some way)
    rfl
  · cases hway
  · cbv
  · rw [hid]
    decide

theorem clean_normalizes_layered :
    TakesId (Surroundings.layered.absolute (.ofText "./geo//../geo/")) Surroundings.layered.roots
        (Path.ofText "/w").clean "s/geo" ∧
      ((Path.ofText "/w").clean.join (.ofText "s/geo")).clean =
        Surroundings.layered.absolute (.ofText "./geo//../geo/") ∧
      importId "s/geo" = "s/geo" ∧
      Surroundings.layered.packageId (.ofText "./geo//../geo/") = "s/geo" := by
  obtain ⟨hclean, -, -, hid⟩ := clean_normalizes
  have hclean (p : Path) : p.clean.clean = p.clean := (hclean p).2.1
  have hproper := ((Path.proper_ofText "/w/s").join (Path.proper_ofText "./geo//../geo/")).clean
  have hroots : ∀ root ∈ Surroundings.layered.roots, root.isAbsolute ∧ root.clean = root := by
    intro root hroot
    obtain ⟨given, -, rfl⟩ := List.mem_map.1 hroot
    exact ⟨Path.isAbsolute_join rfl given, hclean _⟩
  obtain ⟨hback, himport, -, hpackage⟩ :=
    hid _ _ rfl (hclean _) hproper hroots _ _ takesId_layered
  exact ⟨takesId_layered, hback, himport, hpackage _ _ rfl rfl⟩

end Backwire.Package
