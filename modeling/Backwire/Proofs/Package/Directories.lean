import Backwire.Proofs.Package.Cleaning
import Backwire.Proofs.Package.Reachable

/-!
# Which directory a package is

A package is told by its ID alone, and there are two ways to an ID: a path that is given has one by
the import root it lies below, and an import names one itself. Nothing makes them agree. The same
ID can stand for several directories (`Denotes`), and the package that a session has is the one that
was found first, wherever else it is asked for later (`attempt_directory_shadowed`).

Where an ID stands for one directory only, its package is in that directory (`attempt_directory`).
With a single import root, and paths below it, every ID is like that (`unambiguous_of_one_root`).
-/

namespace Backwire.Package

variable {e : Surroundings} {s : Session} {calls : List Path} {given : Path} {id : String} {i : Nat}
  {c : Compiled}

/-- The session after calls in unchanged surroundings. -/
def Session.after (e : Surroundings) (calls : List Path) : Session :=
  calls.foldl (fun s given => (s.attempt e given).2) .empty

theorem Session.after_concat (e : Surroundings) (calls : List Path) (given : Path) :
    after e (calls ++ [given]) = ((after e calls).attempt e given).2 := List.foldl_concat ..

theorem Session.reachable_after (e : Surroundings) (calls : List Path) :
    (after e calls).Reachable := by
  induction calls using List.reverseRecOn with
  | nil => exact .empty
  | append_singleton calls given ih =>
    rw [after_concat]
    exact ih.attempt e given

/-- **A directory that an ID stands for**: that of a given path which has the ID, or the one that
imports of the ID lead to, if there are any. -/
inductive Denotes (e : Surroundings) (calls : List Path) : String → Path → Prop where
  | given {given : Path} (h : given ∈ calls) :
      Denotes e calls (e.packageId given) (e.absolute given)
  | imported {id : String} {place : Path} (h : id ∈ importIds e.tree)
      (hplace : e.directoryOf? id = some place) : Denotes e calls id place

theorem Denotes.append {place : Path} (h : Denotes e calls id place) (more : List Path) :
    Denotes e (calls ++ more) id place := by
  cases h with
  | given h => exact .given (List.mem_append_left _ h)
  | imported h hplace => exact .imported h hplace

/-- An ID stands for no more than one directory. -/
def Unambiguous (e : Surroundings) (calls : List Path) (id : String) : Prop :=
  ∀ p q, Denotes e calls id p → Denotes e calls id q → p = q

/-- **Every package is in a directory that its ID stands for**, and was made of the files there. -/
theorem Session.denotes_after (h : (after e calls).package? i = some c) :
    c.MadeIn e ∧ Denotes e calls c.id c.directory := by
  induction calls using List.reverseRecOn generalizing i c with
  | nil => cases h
  | append_singleton calls given ih =>
    have hsettled := (reachable_after e calls).settled
    have hold (hc : (after e calls).package? i = some c) :
        c.MadeIn e ∧ Denotes e (calls ++ [given]) c.id c.directory :=
      (ih hc).imp_right (Denotes.append · [given])
    rw [after_concat] at h
    rcases attempt_cases (after e calls) e given with
      ⟨n, s', hattempt, h'⟩ | ⟨err, s', hattempt, h'⟩
    · rw [hattempt] at h
      rcases Nat.lt_or_ge i (after e calls).entries.length with hlt | hge
      · obtain ⟨q, hq⟩ := hsettled.finished i hlt
        cases (h'.grows.package? hq).symm.trans h
        exact hold hq
      · have hgiven : Denotes e (calls ++ [given]) (e.packageId given) (e.absolute given) :=
          .given (List.mem_append_right _ List.mem_cons_self)
        obtain ⟨q, hq, hmade⟩ := h'.added (P := Denotes e (calls ++ [given]))
          (fun _ hid _ hplace => .imported hid hplace) hgiven hge (lt_length_of_package? h)
        cases hq.symm.trans h
        exact hmade
    · rw [hattempt, hsettled.fails h'] at h
      exact hold h

/-- **Where an ID stands for one directory only, its package is in that directory.** A call that
succeeds yields a package of the ID that the given path has, in a directory that this ID stands for.
An import has led to a package of the ID it asks for, and a directory of this ID is under one of the
roots. Where the ID is unambiguous, the package that was called for is in the given directory, and
the one that was imported is in the first of those under the roots. -/
theorem attempt_directory (e : Surroundings) (calls : List Path) (given : Path) :
    (∀ n s', (Session.after e calls).attempt e given = (.ok n, s') →
      ∃ c, s'.package? n = some c ∧ c.id = e.packageId given ∧
        Denotes e (calls ++ [given]) c.id c.directory ∧
        (Unambiguous e (calls ++ [given]) c.id → c.directory = e.absolute given)) ∧
    ∀ i c, (Session.after e calls).package? i = some c → ∀ f ∈ c.files, ∀ l ∈ f.imports,
      ∃ q place, (Session.after e calls).package? l.package = some q ∧ q.id = l.id ∧
        e.directoryOf? l.id = some place ∧ Denotes e calls l.id q.directory ∧
        (Unambiguous e calls l.id → q.directory = place) := by
  have hsettled := (Session.reachable_after e calls).settled
  refine ⟨fun n s' hattempt => ?_, fun i c hc f hf l hl => ?_⟩
  · have hs' : Session.after e (calls ++ [given]) = s' := by
      rw [Session.after_concat, hattempt]
    have hgiven : Denotes e (calls ++ [given]) (e.packageId given) (e.absolute given) :=
      .given (List.mem_append_right _ List.mem_cons_self)
    rcases attempt_cases (Session.after e calls) e given with ⟨m, t, heq, h⟩ | ⟨err, t, heq, -⟩
    · cases heq.symm.trans hattempt
      obtain ⟨-, c, hc, hid⟩ := hsettled.compiles h
      obtain ⟨-, hdenotes⟩ := Session.denotes_after (hs' ▸ hc)
      exact ⟨c, hc, hid, hdenotes, fun hone => hone _ _ hdenotes (hid ▸ hgiven)⟩
    · cases heq.symm.trans hattempt
  · have hlinks : l ∈ c.links := List.mem_flatMap.2 ⟨f, hf, hl⟩
    obtain ⟨q, hq, hid⟩ := hsettled.linked i c hc l hlinks
    obtain ⟨⟨horder, hplaces⟩, -⟩ := Session.denotes_after hc
    obtain ⟨place, hplace⟩ := Option.isSome_iff_exists.1 (hplaces l hlinks)
    obtain ⟨-, hdenotes⟩ := Session.denotes_after hq
    rw [hid] at hdenotes
    have himported : Denotes e calls l.id place := .imported (horder.mem_importIds hf hl) hplace
    exact ⟨q, place, hq, hid, hplace, hdenotes, fun hone => hone _ _ hdenotes himported⟩

theorem packageId_sample : Surroundings.sample.packageId (.ofText "c") = "c" := by cbv

theorem unambiguous_sample (id : String) : Unambiguous .sample [.ofText "c"] id := by
  have hnone : Surroundings.sample.directoryOf? "c" = none := by cbv
  have hcases {p : Path} (h : Denotes .sample [.ofText "c"] id p) :
      (id = "c" ∧ p = Surroundings.sample.absolute (.ofText "c")) ∨
        Surroundings.sample.directoryOf? id = some p := by
    cases h with
    | given h =>
      rw [List.mem_singleton.1 h]
      exact .inl ⟨packageId_sample, rfl⟩
    | imported _ h => exact .inr h
  intro p q hp hq
  rcases hcases hp with ⟨hid, rfl⟩ | hp
  · subst hid
    rcases hcases hq with ⟨-, rfl⟩ | hq
    · rfl
    · rw [hnone] at hq
      cases hq
  · rcases hcases hq with ⟨hid, -⟩ | hq
    · subst hid
      rw [hnone] at hp
      cases hp
    · exact Option.some.inj (hp.symm.trans hq)

theorem attempt_directory_sample :
    Unambiguous .sample [.ofText "c"] "c" ∧
      (∃ c, Session.sample.package? 0 = some c ∧ c.id = "c" ∧
        c.directory = Surroundings.sample.absolute (.ofText "c")) ∧
      Unambiguous .sample [.ofText "c"] "x" ∧
      ∃ q, Session.sample.package? 1 = some q ∧ q.id = "x" ∧
        Surroundings.sample.directoryOf? "x" = some q.directory := by
  have hsample : Session.after .sample [.ofText "c"] = .sample := by
    rw [Session.after, List.foldl_cons, attempt_sample, List.foldl_nil]
  obtain ⟨hcall, -⟩ := attempt_directory .sample [] (.ofText "c")
  obtain ⟨-, himport⟩ := attempt_directory .sample [.ofText "c"] (.ofText "c")
  obtain ⟨c, hc, hid, -, hdirectory⟩ := hcall 0 .sample attempt_sample
  obtain ⟨q, place, hq, hqid, hplace, -, hqdirectory⟩ :=
    himport 0 (.sampleImporting 1) (hsample ▸ rfl) _ List.mem_cons_self _ List.mem_cons_self
  rw [hsample] at hq
  rw [← hqdirectory (unambiguous_sample _)] at hplace
  exact ⟨unambiguous_sample _, ⟨c, hc, hid.trans packageId_sample, hdirectory (unambiguous_sample _)⟩,
    unambiguous_sample _, q, hq, hqid, hplace⟩

/-! ### One ID, two directories -/

theorem call_sample_second :
    Surroundings.sample.call (.ofText "b/x") = .package (.ofNames ["w", "b", "x"]) "x" none := by
  cbv

theorem call_sample_first :
    Surroundings.sample.call (.ofText "a/x") = .package (.ofNames ["w", "a", "x"]) "x" none := by
  cbv

/-- The session in which `x` has been compiled under the second root. -/
def Session.sampleSecond : Session := ⟨[.finished (.sampleImported "b")], [("x", 0)]⟩

/-- The session in which `x` has been compiled under the second root and `c` after it. -/
def Session.sampleSecondImported : Session :=
  ⟨[.finished (.sampleImported "b"), .finished (.sampleImporting 0)], [("c", 1), ("x", 0)]⟩

theorem attempt_sample_second :
    Session.empty.attempt .sample (.ofText "b/x") = (.ok 0, .sampleSecond) := by
  refine Compiles.attempt (call_sample_second ▸ ?_)
  exact .fresh (p := .sampleImported "b") rfl (draft_sampleImported (.inr rfl)) .done rfl rfl

theorem attempt_sample_first :
    Session.sampleSecond.attempt .sample (.ofText "a/x") = (.ok 0, .sampleSecond) :=
  Compiles.attempt (call_sample_first ▸ .known rfl)

theorem attempt_sample_importing :
    Session.sampleSecond.attempt .sample (.ofText "c") = (.ok 1, .sampleSecondImported) := by
  refine Compiles.attempt (call_sample ▸ ?_)
  exact .fresh (p := .sampleImporting 0) rfl draft_sampleImporting
    (.next directoryOf?_sample (.known rfl) .done) rfl rfl

/-- Under the second of two import roots, `x` is compiled first. It is what a call for the `x` under
the first root yields then, and what an import of `x` leads to. -/
theorem attempt_directory_shadowed :
    (∃ s c, Session.after .sample [.ofText "b/x"] = s ∧
      s.attempt .sample (.ofText "a/x") = (.ok 0, s) ∧ s.package? 0 = some c ∧
      c.directory ≠ Surroundings.sample.absolute (.ofText "a/x")) ∧
    ∃ s c l q, Session.after .sample [.ofText "b/x", .ofText "c"] = s ∧ s.package? 1 = some c ∧
      l ∈ c.links ∧ s.package? l.package = some q ∧
      Surroundings.sample.directoryOf? l.id ≠ some q.directory := by
  have hsecond : Session.after .sample [.ofText "b/x"] = .sampleSecond := by
    rw [Session.after, List.foldl_cons, attempt_sample_second, List.foldl_nil]
  have himported : Session.after .sample [.ofText "b/x", .ofText "c"] = .sampleSecondImported := by
    rw [Session.after, List.foldl_cons, attempt_sample_second, List.foldl_cons,
      attempt_sample_importing, List.foldl_nil]
  refine ⟨⟨_, .sampleImported "b", hsecond, attempt_sample_first, rfl, by decide⟩,
    _, .sampleImporting 0, ⟨"x", "x", 0⟩, .sampleImported "b", himported, rfl, ?_, rfl, ?_⟩
  · exact List.mem_cons_self
  · rw [directoryOf?_sample]
    decide

/-! ### One import root -/

/-- **A path below an import root is what the ID it has by the root leads to** from the root. -/
theorem directory_of_way {root way : Path} (hworking : e.workingDirectory.isAbsolute)
    (hproper : e.workingDirectory.Proper) (hgiven : given.Proper)
    (hway : (e.absolute given).within? root = some way) (hsteps : way.steps ≠ []) :
    way.slashed ≠ "" ∧ (root.join (.ofText way.slashed)).clean = e.absolute given :=
  have hnames : ∀ s ∈ (e.absolute given).steps, ∃ n, s = .name n := fun _ hs =>
    (Path.clean_steps (Path.isAbsolute_join hworking given) hs).1
  Path.clean_join_way hnames (hproper.join hgiven).clean hway hsteps

/-- **With one import root, IDs are unambiguous** as long as only paths below it are given: an ID is
the way from the root then, whichever way it was come by. -/
theorem unambiguous_of_one_root {root : Path} {texts : List String} (hroots : e.roots = [root])
    (hworking : e.workingDirectory.isAbsolute) (hproper : e.workingDirectory.Proper)
    (hbelow : ∀ text ∈ texts, ∃ way,
      (e.absolute (.ofText text)).within? root = some way ∧ way.steps ≠ []) (id : String) :
    Unambiguous e (texts.map .ofText) id := by
  have hplace {p : Path} (h : Denotes e (texts.map .ofText) id p) :
      p = (root.join (.ofText id)).clean := by
    cases h with
    | given h =>
      obtain ⟨text, htext, rfl⟩ := List.mem_map.1 h
      obtain ⟨way, hway, hsteps⟩ := hbelow text htext
      obtain ⟨hne, hback⟩ :=
        directory_of_way hworking hproper (Path.proper_ofText text) hway hsteps
      have htakes : TakesId (e.absolute (.ofText text)) e.roots root way.slashed :=
        hroots ▸ .here hway hne
      have hid : e.packageId (.ofText text) = way.slashed := htakes.packageId
      rw [hid, hback]
    | imported _ hplace =>
      rw [Surroundings.directoryOf?, hroots] at hplace
      exact List.mem_singleton.1 (List.mem_of_find?_eq_some hplace)
  intro p q hp hq
  rw [hplace hp, hplace hq]

end Backwire.Package
