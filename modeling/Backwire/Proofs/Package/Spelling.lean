import Backwire.Proofs.Package.Directories

/-!
# How many packages a directory is

A session tells packages apart by their IDs, so a directory is as many packages as it has been
asked for under IDs. An import path with a step back is an ID of its own, though it leads to a
directory that another ID leads to as well, and the files there are compiled a second time
(`directories_repeated`).

Where IDs are spelled plainly (`Plain`), this cannot happen: no import path has a step back, every
given path lies below an import root, and no import root lies in another. An ID is then the way from
a root to its directory, step by step, and can be read off the directory (`Plain.id_unique`). So
no directory is two packages (`directories_differ`).
-/

namespace Backwire.Package

open Schema

variable {e : Surroundings} {calls : List Path} {given : Path} {id id' : String} {place : Path}

/-! ### IDs that are ways -/

/-- An ID that leads down from wherever it is taken: it has only names between its slashes. -/
def Downward (id : String) : Prop := ∀ s ∈ (Path.ofText id).steps, ∃ n, s = .name n

/-- The step of a name is written as the name. -/
theorem Step.text_ofText {t : String} (h : ∃ n, Step.ofText t = .name n) :
    (Step.ofText t).text = t := by
  obtain ⟨n, hn⟩ := h
  unfold ofText at hn ⊢
  split at hn
  · cases hn
  · next hhere =>
    split at hn
    · cases hn
    · next hup =>
      rw [if_neg hhere, if_neg hup]
      rfl

namespace Downward

/-- The first segment of a path from the root is empty, so it is no name. -/
theorem isAbsolute (h : Downward id) : (Path.ofText id).isAbsolute = false := by
  unfold Path.ofText
  simp only [decide_eq_false_iff_not]
  intro hhead
  obtain ⟨cs, hcs⟩ := List.head?_eq_some_iff.1 hhead
  have hmem : Step.here ∈ (Path.ofText id).steps := by
    simp [Path.ofText, Text.segments, hcs, Text.split, Step.ofText]
  exact Path.notMem_of_names h rfl hmem

/-- **An ID that leads down is what its path is written as.** -/
theorem slashed_ofText (h : Downward id) : (Path.ofText id).slashed = id := by
  have htexts : (Path.ofText id).steps.map Step.text = Text.segments '/' id := by
    show ((Text.segments '/' id).map Step.ofText).map Step.text = Text.segments '/' id
    rw [List.map_map]
    refine (List.map_congr_left fun t ht => ?_).trans (List.map_id _)
    exact Step.text_ofText (h _ (List.mem_map_of_mem ht))
  have hlists : (Text.segments '/' id).map String.toList = Text.split '/' id.toList := by
    rw [Text.segments, List.map_map]
    exact (List.map_congr_left fun w _ => String.toList_ofList).trans (List.map_id _)
  rw [Path.slashed, htexts, Text.joined, hlists, Text.join_split, String.ofList_toList]

end Downward

/-! ### Plain spelling -/

/-- **IDs are spelled plainly**: relative paths start from a place that can be written down, import
roots lie apart, given paths lie below them, and what files import leads down. -/
structure Plain (e : Surroundings) (calls : List Path) : Prop where
  /-- Relative paths start from a directory. -/
  working : e.workingDirectory.isAbsolute
  proper : e.workingDirectory.Proper
  /-- No import root lies in another. -/
  apart : ∀ root ∈ e.roots, ∀ other ∈ e.roots, root.steps <+: other.steps → root = other
  /-- Every given path leads to a directory below an import root. -/
  below : ∀ given ∈ calls, given.Proper ∧ ∃ root ∈ e.roots, ∃ way,
    (e.absolute given).within? root = some way ∧ way.steps ≠ []
  /-- No import has a step back, and none is for the root itself. -/
  downward : ∀ id ∈ importIds e.tree, Downward id

/-- An import root is a clean path from the root. -/
theorem Surroundings.root_of_mem (h : e.workingDirectory.isAbsolute) {root : Path}
    (hroot : root ∈ e.roots) : root.isAbsolute ∧ ∀ s ∈ root.steps, ∃ n, s = .name n := by
  have hclean {p : Path} (hp : p.isAbsolute) :
      p.clean.isAbsolute ∧ ∀ s ∈ p.clean.steps, ∃ n, s = .name n :=
    ⟨hp, fun s hs => (Path.clean_steps hp hs).1⟩
  unfold roots at hroot
  split at hroot
  · rw [List.mem_singleton.1 hroot]
    exact hclean h
  · obtain ⟨p, -, rfl⟩ := List.mem_map.1 hroot
    exact hclean (Path.isAbsolute_join h p)

/-- A directory below an import root goes by the way to it from the first such root. -/
theorem Surroundings.packageId_of_below
    (h : ∃ root ∈ e.roots, ∃ way, (e.absolute given).within? root = some way ∧ way.slashed ≠ "") :
    ∃ root ∈ e.roots, ∃ way, (e.absolute given).within? root = some way ∧ way.slashed ≠ "" ∧
      e.packageId given = way.slashed := by
  obtain ⟨root, hroot, way, hway, hne⟩ := h
  obtain ⟨root, id, htakes⟩ := exists_takesId hroot hway hne
  obtain ⟨hroot, way, hway, rfl, hne⟩ := htakes.exists_way
  exact ⟨root, hroot, way, hway, hne, htakes.packageId⟩

/-- What an ID that leads down leads to from an import root. -/
theorem Downward.clean_join (h : Downward id) {root : Path}
    (hroot : ∀ s ∈ root.steps, ∃ n, s = .name n) :
    (root.join (.ofText id)).clean = ⟨root.isAbsolute, root.steps ++ (Path.ofText id).steps⟩ := by
  have hjoin : root.join (.ofText id) =
      ⟨root.isAbsolute, root.steps ++ (Path.ofText id).steps⟩ := by
    rw [Path.join, h.isAbsolute]
    rfl
  rw [hjoin]
  exact Path.clean_of_names (List.forall_mem_append.2 ⟨hroot, h⟩)

namespace Plain

/-- The ID of a given path is the way to it from an import root. -/
theorem way_of_given (h : Plain e calls) (hgiven : given ∈ calls) :
    ∃ root ∈ e.roots, ∃ way, (e.absolute given).within? root = some way ∧ way.slashed ≠ "" ∧
      e.packageId given = way.slashed := by
  obtain ⟨hproper, root, hroot, way, hway, hsteps⟩ := h.below given hgiven
  obtain ⟨hne, -⟩ := directory_of_way h.working h.proper hproper hway hsteps
  exact Surroundings.packageId_of_below ⟨root, hroot, way, hway, hne⟩

/-- **An ID is the way from an import root to each directory that it stands for.** -/
theorem way_of_denotes (h : Plain e calls) (hd : Denotes e calls id place) :
    Downward id ∧ ∃ root ∈ e.roots,
      place = ⟨root.isAbsolute, root.steps ++ (Path.ofText id).steps⟩ := by
  cases hd with
  | @given given hgiven =>
    obtain ⟨root, hroot, way, hway, hne, hid⟩ := h.way_of_given hgiven
    obtain ⟨hproper, -⟩ := h.below given hgiven
    have hsteps : way.steps ≠ [] := by
      intro hnil
      exact hne (by rw [Path.slashed, hnil]; rfl)
    obtain ⟨hrelative, hsame, hplace⟩ := Path.within?_eq_some_iff.1 hway
    have hnames : ∀ s ∈ way.steps, (∃ n, s = .name n) ∧ s.Proper := by
      intro s hs
      have hmem : s ∈ (e.absolute given).steps := hplace ▸ List.mem_append_right _ hs
      obtain ⟨hname, hmem⟩ := Path.clean_steps (Path.isAbsolute_join h.working given) hmem
      exact ⟨hname, h.proper.join hproper s hmem⟩
    have hread : Path.ofText way.slashed = way :=
      Path.ofText_slashed (fun s hs => (hnames s hs).2) hrelative hsteps
    rw [hid]
    refine ⟨?_, root, hroot, ?_⟩
    · intro s hs
      rw [hread] at hs
      exact (hnames s hs).1
    · rw [hread, ← hplace, ← hsame]
  | imported hid hplace =>
    have hdown := h.downward id hid
    obtain ⟨root, hroot, hjoin⟩ := List.mem_map.1 (List.mem_of_find?_eq_some hplace)
    refine ⟨hdown, root, hroot, ?_⟩
    rw [← hjoin, hdown.clean_join (Surroundings.root_of_mem h.working hroot).2]

/-- **A directory has one ID.** -/
theorem id_unique (h : Plain e calls) (hid : Denotes e calls id place)
    (hid' : Denotes e calls id' place) : id = id' := by
  obtain ⟨hdown, root, hroot, hplace⟩ := h.way_of_denotes hid
  obtain ⟨hdown', root', hroot', hplace'⟩ := h.way_of_denotes hid'
  have hsteps : root.steps ++ (Path.ofText id).steps = root'.steps ++ (Path.ofText id').steps :=
    congrArg Path.steps (hplace.symm.trans hplace')
  -- of two roots above one directory, one lies in the other
  have hroots : root = root' := by
    rcases List.append_eq_append_iff.1 hsteps with ⟨more, hmore, -⟩ | ⟨more, hmore, -⟩
    · exact h.apart root hroot root' hroot' ⟨more, hmore.symm⟩
    · exact (h.apart root' hroot' root hroot ⟨more, hmore.symm⟩).symm
  subst hroots
  have hway : (Path.ofText id).steps = (Path.ofText id').steps := List.append_cancel_left hsteps
  have hpath : Path.ofText id = Path.ofText id' := by
    have habsolute := hdown.isAbsolute.trans hdown'.isAbsolute.symm
    cases hp : Path.ofText id
    cases hp' : Path.ofText id'
    rw [hp, hp'] at hway habsolute
    cases hway
    cases habsolute
    rfl
  calc id = (Path.ofText id).slashed := hdown.slashed_ofText.symm
    _ = (Path.ofText id').slashed := by rw [hpath]
    _ = id' := hdown'.slashed_ofText

end Plain

/-! ### Samples -/

/-- A directory `c` with one file, and a directory `x` beside it, below the only import root. -/
def Surroundings.spelled (text : String) : Surroundings where
  tree := ⟨[(.ofNames ["w"], .directory), (.ofNames ["w", "c"], .directory),
    (.ofNames ["w", "c", "m.spec"], .file text.toUTF8), (.ofNames ["w", "x"], .directory),
    (.ofNames ["w", "x", "m.spec"], .file ⟨#[]⟩)]⟩
  workingDirectory := .ofNames ["w"]
  importPaths := []

section Spelled

variable {κ τ : Type}

/-- The package in `x` under an ID. -/
def PackageOf.spelledImported (id : String) : PackageOf κ τ :=
  ⟨id, .ofNames ["w", "x"], [⟨"m.spec", .ofNames ["w", "x", "m.spec"], [], []⟩], []⟩

/-- The package in `c` with its imports. -/
def PackageOf.spelledImporting (imports : List (Link κ)) : PackageOf κ τ :=
  ⟨"c", .ofNames ["w", "c"], [⟨"m.spec", .ofNames ["w", "c", "m.spec"], imports, []⟩], []⟩

end Spelled

/-- A file that imports `x`. -/
def Surroundings.spelledOnce : Surroundings := .spelled "import \"x\""

/-- A file that imports `x`, and again with a step back. -/
def Surroundings.spelledTwice : Surroundings := .spelled "import \"x\" import y \"c/../x\""

/-- The session in which `c` has been compiled that imports `x` once. -/
def Session.spelledOnce : Session :=
  ⟨[.finished (.spelledImporting [⟨"x", "x", 1⟩]), .finished (.spelledImported "x")],
    [("x", 1), ("c", 0)]⟩

/-- The session in which `c` has been compiled that imports `x` twice. -/
def Session.spelledTwice : Session :=
  ⟨[.finished (.spelledImporting [⟨"x", "x", 1⟩, ⟨"c/../x", "y", 2⟩]),
    .finished (.spelledImported "x"), .finished (.spelledImported "c/../x")],
    [("c/../x", 2), ("x", 1), ("c", 0)]⟩

theorem directoryOf?_spelled (text : String) {id : String} (h : id = "x" ∨ id = "c/../x") :
    (Surroundings.spelled text).directoryOf? id = some (.ofNames ["w", "x"]) := by
  rcases h with rfl | rfl <;> cbv

theorem call_spelled (text : String) :
    (Surroundings.spelled text).call (.ofText "c") = .package (.ofNames ["w", "c"]) "c" none := by
  cbv

/-- The package in `x` compiles under every ID, as it imports nothing. -/
theorem compiles_spelledImported (text : String) {s : Session} (h : s.indexOf? id = none)
    (from? : Option Location) :
    Compiles (.spelled text) s (.package (.ofNames ["w", "x"]) id from?) [s.entries.length]
      ((s.start (.spelledImported id)).finish s.entries.length (.spelledImported id)) := by
  have hdraft : draft (Surroundings.spelled text).tree (.ofNames ["w", "x"]) id =
      .ok (.spelledImported id) :=
    draft_of_single ⟨"m.spec", .ofNames ["w", "x", "m.spec"], ""⟩ rfl rfl rfl rfl
      (by cbv : parse "" = .ok ⟨[], [], []⟩) rfl
  exact .fresh (p := .spelledImported id) h hdraft .done rfl rfl

theorem draft_spelledOnce :
    draft Surroundings.spelledOnce.tree (.ofNames ["w", "c"]) "c" =
      .ok (.spelledImporting [⟨"x", "x", ()⟩]) :=
  draft_of_single ⟨"m.spec", .ofNames ["w", "c", "m.spec"], "import \"x\""⟩ rfl rfl rfl rfl
    (by cbv : parse "import \"x\"" = .ok ⟨[⟨none, "x"⟩], [], []⟩) (by cbv)

theorem draft_spelledTwice :
    draft Surroundings.spelledTwice.tree (.ofNames ["w", "c"]) "c" =
      .ok (.spelledImporting [⟨"x", "x", ()⟩, ⟨"c/../x", "y", ()⟩]) :=
  draft_of_single ⟨"m.spec", .ofNames ["w", "c", "m.spec"], "import \"x\" import y \"c/../x\""⟩
    rfl rfl rfl rfl
    (by cbv : parse "import \"x\" import y \"c/../x\"" =
      .ok ⟨[⟨none, "x"⟩, ⟨some "y", "c/../x"⟩], [], []⟩) (by cbv)

theorem after_spelledOnce : Session.after .spelledOnce [.ofText "c"] = .spelledOnce := by
  have hattempt : Session.empty.attempt .spelledOnce (.ofText "c") = (.ok 0, .spelledOnce) := by
    refine Compiles.attempt (call_spelled _ ▸ ?_)
    have hnew : (Session.empty.start (.spelledImporting [⟨"x", "x", ()⟩])).indexOf? "x" = none :=
      rfl
    have hx := compiles_spelledImported "import \"x\"" hnew
    exact .fresh (p := .spelledImporting [⟨"x", "x", 1⟩]) rfl draft_spelledOnce
      (.next (directoryOf?_spelled _ (.inl rfl)) (hx _) .done) rfl rfl
  rw [Session.after, List.foldl_cons, hattempt, List.foldl_nil]

theorem after_spelledTwice : Session.after .spelledTwice [.ofText "c"] = .spelledTwice := by
  have hattempt : Session.empty.attempt .spelledTwice (.ofText "c") = (.ok 0, .spelledTwice) := by
    refine Compiles.attempt (call_spelled _ ▸ ?_)
    exact .fresh (p := .spelledImporting [⟨"x", "x", 1⟩, ⟨"c/../x", "y", 2⟩]) rfl draft_spelledTwice
      (.next (directoryOf?_spelled _ (.inl rfl)) (compiles_spelledImported _ rfl _)
        (.next (directoryOf?_spelled _ (.inr rfl)) (compiles_spelledImported _ rfl _) .done))
      rfl rfl
  rw [Session.after, List.foldl_cons, hattempt, List.foldl_nil]

theorem importIds_spelledOnce : importIds Surroundings.spelledOnce.tree = ["x"] := by
  have hc : Surroundings.spelledOnce.tree.readText .root (.ofNames ["w", "c", "m.spec"]) =
      .ok "import \"x\"" := rfl
  have hx : Surroundings.spelledOnce.tree.readText .root (.ofNames ["w", "x", "m.spec"]) =
      .ok "" := rfl
  have hdirectory {p : Path} (hp : p = .ofNames ["w"] ∨ p = .ofNames ["w", "c"] ∨
      p = .ofNames ["w", "x"]) :
      Surroundings.spelledOnce.tree.readText .root p = .error .isDirectory := by
    rcases hp with rfl | rfl | rfl <;> rfl
  have hparse : parse "import \"x\"" = .ok ⟨[⟨none, "x"⟩], [], []⟩ := by cbv
  have hempty : parse "" = .ok ⟨[], [], []⟩ := by cbv
  have hid : importId "x" = "x" := by cbv
  show List.flatMap _ [_, _, _, _, _] = _
  simp [hc, hx, hdirectory, hparse, hempty, hid]

theorem plain_spelledOnce : Plain .spelledOnce [.ofText "c"] := by
  have hroots : Surroundings.spelledOnce.roots = [.ofNames ["w"]] := by cbv
  refine ⟨rfl, ?_, ?_, ?_, ?_⟩
  · intro s hs
    rw [List.mem_singleton.1 hs]
    exact ⟨by decide, by decide⟩
  · intro root hroot other hother _
    rw [hroots] at hroot hother
    rw [List.mem_singleton.1 hroot, List.mem_singleton.1 hother]
  · intro given hgiven
    rw [List.mem_singleton.1 hgiven, hroots]
    exact ⟨Path.proper_ofText _, _, List.mem_cons_self, ⟨false, [.name "c"]⟩, by cbv,
      List.cons_ne_nil _ _⟩
  · intro id hid
    rw [importIds_spelledOnce] at hid
    rw [List.mem_singleton.1 hid]
    intro s hs
    exact ⟨"x", List.mem_singleton.1 hs⟩

/-! ### The packages of a directory -/

/-- **Packages in one directory have been asked for under several IDs.** Two packages of a session
that are in one directory have different IDs, and each of the two stands for the directory: it is
the ID of a given path or of imports that lead there. Where IDs are spelled plainly, there are no
two such packages. -/
theorem directories_differ (e : Surroundings) (calls : List Path) :
    (∀ i j c d, (Session.after e calls).package? i = some c →
      (Session.after e calls).package? j = some d → c.directory = d.directory → i ≠ j →
      c.id ≠ d.id ∧ Denotes e calls c.id c.directory ∧ Denotes e calls d.id c.directory) ∧
    (Plain e calls → ∀ i j c d, (Session.after e calls).package? i = some c →
      (Session.after e calls).package? j = some d → c.directory = d.directory → i = j) := by
  have hsettled := (Session.reachable_after e calls).settled
  have hdenotes {i : Nat} {c : Compiled} (hc : (Session.after e calls).package? i = some c) :
      Denotes e calls c.id c.directory := (Session.denotes_after hc).2
  have hsame {i j : Nat} {c d : Compiled} (hc : (Session.after e calls).package? i = some c)
      (hd : (Session.after e calls).package? j = some d) (hid : c.id = d.id) : i = j := by
    have hi := hsettled.indexOf?_eq_some hc
    rw [hid, hsettled.indexOf?_eq_some hd] at hi
    exact (Option.some.inj hi).symm
  constructor
  · intro i j c d hc hd hdirectory hij
    refine ⟨fun hid => hij (hsame hc hd hid), hdenotes hc, ?_⟩
    rw [hdirectory]
    exact hdenotes hd
  · intro hplain i j c d hc hd hdirectory
    refine hsame hc hd (hplain.id_unique (hdenotes hc) ?_)
    rw [hdirectory]
    exact hdenotes hd

theorem directories_differ_spelled :
    (Denotes .spelledTwice [.ofText "c"] "x" (.ofNames ["w", "x"]) ∧
      Denotes .spelledTwice [.ofText "c"] "c/../x" (.ofNames ["w", "x"])) ∧
    Plain .spelledOnce [.ofText "c"] ∧ Session.spelledOnce.ids = ["c", "x"] ∧
      ∀ i j c d, Session.spelledOnce.package? i = some c → Session.spelledOnce.package? j = some d →
        c.directory = d.directory → i = j := by
  obtain ⟨htwice, -⟩ := directories_differ .spelledTwice [.ofText "c"]
  obtain ⟨-, honce⟩ := directories_differ .spelledOnce [.ofText "c"]
  rw [after_spelledTwice] at htwice
  rw [after_spelledOnce] at honce
  obtain ⟨-, hx, hback⟩ :=
    htwice 1 2 (.spelledImported "x") (.spelledImported "c/../x") rfl rfl rfl (by decide)
  exact ⟨⟨hx, hback⟩, plain_spelledOnce, rfl, honce plain_spelledOnce⟩

/-- A file imports a directory, and again by a path with a step back. The directory is two packages
then. -/
theorem directories_repeated :
    ∃ s i j c d, Session.after .spelledTwice [.ofText "c"] = s ∧ i ≠ j ∧
      s.package? i = some c ∧ s.package? j = some d ∧ c.directory = d.directory :=
  ⟨_, 1, 2, .spelledImported "x", .spelledImported "c/../x", after_spelledTwice, by decide, rfl,
    rfl, rfl⟩

end Backwire.Package
